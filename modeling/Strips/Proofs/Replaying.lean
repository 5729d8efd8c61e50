import Mathlib.Order.Bounds.Basic
import Strips.Proofs.Actors
import Strips.Proofs.Indexing
import Strips.Proofs.LayerBuilding

/-!
# Replaying plans

Plans are replayed on sets of literals, which are looked up by indices and by the cells of their
members. If all literals are constant then only what they say counts: such a set lists facts, each
once, and an action does to the list what its step does.

In the list after a step comes first what is left of the old list, in the old order, and then what
is new. As a set this is what was true, without what the step deletes, and with what it adds. A plan
is replayed as long as the preconditions of its steps are among the facts, so if it is not replayed
to its end, then the failure is at the first step of which they are not.

## Main definitions

* `Step.image`, `Step.relist` – what a step does to a set of facts, and to a list of them.
* `Step.AppliesAt` – a step of a plan finds its preconditions.
* `IndexedSet.Lists` – a set of constant literals that lists facts.

## Main results

* `IndexedSet.Lists.applyAction` – one action.
* `IndexedSet.Lists.applyFrom` – the rest of a plan.
* `Bench.replay_is_strips` – what is replayed, what is left, and where a failure is.
-/

namespace Strips

/-! ### Lists of facts -/

namespace Step

/-- What is true after a step: what was true before and is not deleted, and what is added. -/
def image (S : Set Fact) (s : Step) : Set Fact := (S \ {f | f ∈ s.deleted}) ∪ {f | f ∈ s.added}

/-- The list after a step: what is left of it in its old order, and then what is new. -/
def relist (facts : List Fact) (s : Step) : List Fact :=
  let kept := facts.filter (· ∉ s.deleted)
  kept ++ s.added.eraseDups.filter (· ∉ kept)

/-- The preconditions of a step with this number, if there is one, are true after the steps before
it. -/
def AppliesAt (S : Set Fact) (steps : List Step) (k : Nat) : Prop :=
  ∀ s, steps[k]? = some s → {f | f ∈ s.preconditions} ⊆ (steps.take k).foldl image S

theorem setOf_mem_relist (facts : List Fact) (s : Step) :
    {f | f ∈ s.relist facts} = s.image {f | f ∈ facts} := by
  ext f
  simp only [relist, image, List.mem_append, List.mem_filter, List.mem_eraseDups,
    decide_eq_true_eq, Set.mem_union, Set.mem_sdiff, Set.mem_ofPred_eq]
  tauto

theorem setOf_mem_foldl_relist (facts : List Fact) (steps : List Step) :
    {f | f ∈ steps.foldl relist facts} = steps.foldl image {f | f ∈ facts} := by
  induction steps generalizing facts with
  | nil => rfl
  | cons s steps ih => rw [List.foldl_cons, ih, setOf_mem_relist, List.foldl_cons]

theorem setOf_mem_eraseDups (facts : List Fact) : {f | f ∈ facts.eraseDups} = {f | f ∈ facts} :=
  Set.ext fun _ => List.mem_eraseDups

variable {S : Set Fact} {s : Step} {steps : List Step} {k : Nat}

theorem appliesAt_nil : AppliesAt S [] k := nofun

theorem appliesAt_cons_zero : AppliesAt S (s :: steps) 0 ↔ {f | f ∈ s.preconditions} ⊆ S := by
  simp [AppliesAt]

theorem appliesAt_cons_succ :
    AppliesAt S (s :: steps) (k + 1) ↔ AppliesAt (s.image S) steps k := by
  simp [AppliesAt]

/-- If the first step applies then the first one that does not is among the others. -/
theorem isLeast_cons_succ (hzero : AppliesAt S (s :: steps) 0)
    (h : IsLeast {k | ¬AppliesAt (s.image S) steps k} k) :
    IsLeast {k | ¬AppliesAt S (s :: steps) k} (k + 1) := by
  refine ⟨mt appliesAt_cons_succ.1 h.1, fun j hj => ?_⟩
  cases j with
  | zero => exact absurd hzero hj
  | succ j => exact Nat.succ_le_succ (h.2 (mt appliesAt_cons_succ.2 hj))

end Step

namespace State

/-- Facts that are added one after the other come to the end, each once. -/
theorem foldl_insert_eq (state : State) (facts : List Fact) :
    facts.foldl insert state = state ++ facts.eraseDups.filter (· ∉ state) := by
  induction facts using List.reverseRecOn with
  | nil => simp
  | append_singleton facts f ih =>
    rw [List.foldl_append, List.foldl_cons, List.foldl_nil, ih, insert, eraseDups_concat]
    by_cases hstate : f ∈ state
    · by_cases hfacts : f ∈ facts <;> simp [hstate, hfacts]
    · by_cases hfacts : f ∈ facts <;> simp [hstate, hfacts]

theorem ofList_eq_eraseDups (facts : List Fact) : ofList facts = facts.eraseDups := by
  rw [ofList, foldl_insert_eq]
  simp

theorem ofList_eq_self {facts : List Fact} (h : facts.Nodup) : ofList facts = facts := by
  induction facts using List.reverseRecOn with
  | nil => rfl
  | append_singleton facts f ih =>
    obtain ⟨hfacts, -, happart⟩ := List.nodup_append.1 h
    have hf : f ∉ facts := fun hf => happart f hf f (List.mem_singleton_self f) rfl
    rw [ofList] at ih ⊢
    rw [List.foldl_append, ih hfacts, List.foldl_cons, List.foldl_nil, insert, if_neg]
    simpa using hf

end State

/-! ### Sets that list facts -/

namespace Literal

variable {a : Arena} (ha : a.Sound) {l m : Literal}

include ha

/-- Constant literals are the same exactly if they say the same. -/
theorem same_iff_of_isConstant (hl : l.isConstant a = true) (hm : m.isConstant a = true) :
    l.same a m = true ↔ l.shown a = m.shown a :=
  same_iff_shown (Arena.Sound.keeps (b := { arena := a }) ha) hl hm

theorem isGround_of_isConstant (hl : l.isConstant a = true) : l.isGround a = true :=
  List.all_eq_true.2 fun t ht => Option.isSome_iff_exists.2
    (Term.exists_value?_of_isConstant ha (List.all_eq_true.1 hl t ht))

omit ha in
theorem lt_size_of_isConstant (hl : l.isConstant a = true) : ∀ i ∈ l.cells, i < a.size :=
  fun _ hi => Arena.lt_size_of_isConstant (List.all_eq_true.1 hl _ (mem_cells.1 hi))

end Literal

namespace IndexedSet

/-- A set of constant literals that say the facts of a list, each once and in this order. -/
structure Lists (a : Arena) (s : IndexedSet) (facts : List Fact) : Prop where
  coherent : s.Coherent a
  constant : ∀ l ∈ s.items, l.isConstant a = true
  shown : s.items.map (·.shown a) = facts
  nodup : facts.Nodup

theorem lists_empty (a : Arena) : Lists a {} [] :=
  ⟨coherent_empty a, fun _ hl => absurd hl List.not_mem_nil, rfl, .nil⟩

namespace Lists

variable {a : Arena} (ha : a.Sound) {s : IndexedSet} {facts : List Fact} (h : s.Lists a facts)

include ha h

/-- Looking up a constant literal is looking up what it says. -/
theorem contains {l : Literal} (hl : l.isConstant a = true) :
    s.contains a l = facts.contains (l.shown a) := by
  rw [Bool.eq_iff_iff, h.coherent.contains_iff ha, List.contains_iff_mem, ← h.shown, List.mem_map]
  exact exists_congr fun m => and_congr_right fun hm =>
    Literal.same_iff_of_isConstant ha (h.constant m hm) hl

theorem containsAll_iff {ls : List Literal} (hls : ∀ l ∈ ls, l.isConstant a = true) :
    s.containsAll a ls = true ↔ ∀ l ∈ ls, l.shown a ∈ facts := by
  rw [IndexedSet.containsAll, List.all_eq_true]
  exact forall₂_congr fun l hl => by rw [h.contains ha (hls l hl), List.contains_iff_mem]

theorem insert {l : Literal} (hl : l.isConstant a = true) :
    (s.insert a l).Lists a (State.insert facts (l.shown a)) where
  coherent := h.coherent.insert ha (Literal.lt_size_of_isConstant hl)
  nodup := State.nodup_insert h.nodup
  constant := by
    rw [IndexedSet.insert]
    split
    · exact h.constant
    · intro m hm
      rcases List.mem_append.1 hm with hm | hm
      · exact h.constant m hm
      · exact List.mem_singleton.1 hm ▸ hl
  shown := by
    rw [IndexedSet.insert, State.insert, h.contains ha hl]
    split
    · exact h.shown
    · rw [IndexedSet.push, List.map_append, h.shown]
      rfl

theorem insertMany {ls : List Literal} (hls : ∀ l ∈ ls, l.isConstant a = true) :
    (s.insertMany a ls).Lists a ((ls.map (·.shown a)).foldl State.insert facts) := by
  induction ls generalizing s facts with
  | nil => exact h
  | cons l ls ih =>
    obtain ⟨hl, hls⟩ := List.forall_mem_cons.1 hls
    exact ih (h.insert ha hl) hls

omit h in
theorem ofList {ls : List Literal} (hls : ∀ l ∈ ls, l.isConstant a = true) :
    (IndexedSet.ofList a ls).Lists a (State.ofList (ls.map (·.shown a))) :=
  (lists_empty a).insertMany ha hls

/-- What is missing for an action is what its preconditions say and the list does not have. -/
theorem missing {ls : List Literal} (hls : ∀ l ∈ ls, l.isConstant a = true) :
    (ls.filter fun l => !s.contains a l).map (·.shown a) =
      (ls.map (·.shown a)).filter (· ∉ facts) := by
  rw [List.filter_map]
  refine congrArg _ (List.filter_congr fun l hl => ?_)
  rw [h.contains ha (hls l hl)]
  simp

/-- What an action leaves of the list. -/
theorem kept {deleted : LiteralSet} (hdeleted : ∀ l ∈ deleted.members, l.isConstant a = true) :
    (IndexedSet.ofList a (s.items.filter fun l => !deleted.contains a l)).Lists a
      (facts.filter (· ∉ deleted.members.map (·.shown a))) := by
  have hkeeps : Workbench.Keeps { arena := a } a := Arena.Sound.keeps (b := { arena := a }) ha
  have hshown : (s.items.filter fun l => !deleted.contains a l).map (·.shown a) =
      facts.filter (· ∉ deleted.members.map (·.shown a)) := by
    rw [← h.shown, List.filter_map]
    refine congrArg _ (List.filter_congr fun l hl => ?_)
    rw [LiteralSet.contains_of_isConstant hkeeps hdeleted (h.constant l hl), Bool.eq_iff_iff]
    simp
  rw [← State.ofList_eq_self (h.nodup.filter _), ← hshown]
  exact ofList ha fun l hl => h.constant l (List.mem_filter.1 hl).1

/-- **One action** does to the list what its step does, if its preconditions are among the facts,
and is refused else. -/
theorem applyAction {x : Action} (hx : ∀ l ∈ x.literals, l.isConstant a = true) :
    ((∀ f ∈ (x.shownStep a).preconditions, f ∈ facts) ∧
      ∃ t, Bench.applyAction a s x = .ok t ∧ t.Lists a ((x.shownStep a).relist facts)) ∨
    ((∃ f ∈ (x.shownStep a).preconditions, f ∉ facts) ∧
      Bench.applyAction a s x = .error (.missing (x.text a)
        ((x.preconditions.members.map (·.shown a)).filter (· ∉ facts)))) := by
  have hpre : ∀ l ∈ x.preconditions.members, l.isConstant a = true :=
    fun l hl => hx l (Action.mem_literals.2 (.inl hl))
  have hneg : ∀ l ∈ x.negative.members, l.isConstant a = true :=
    fun l hl => hx l (Action.mem_literals.2 (.inr (.inl hl)))
  have hpos : ∀ l ∈ x.positive.members, l.isConstant a = true :=
    fun l hl => hx l (Action.mem_literals.2 (.inr (.inr hl)))
  have hground : x.isGround a = true := by
    have hall : ∀ ls : LiteralSet, (∀ l ∈ ls.members, l.isConstant a = true) →
        ls.isGround a = true :=
      fun ls hls => List.all_eq_true.2 fun l hl => Literal.isGround_of_isConstant ha (hls l hl)
    rw [Action.isGround, hall _ hpre, hall _ hneg, hall _ hpos]
    rfl
  have hmissing := h.missing ha hpre
  have hempty : (x.preconditions.members.filter fun l => !s.contains a l) = [] ↔
      ∀ f ∈ (x.shownStep a).preconditions, f ∈ facts := by
    rw [← List.map_eq_nil_iff (f := (·.shown a)), hmissing, List.filter_eq_nil_iff]
    simp [Action.shownStep]
  simp only [Bench.applyAction, hground, Bool.not_true, Bool.false_eq_true, if_false, hmissing]
  by_cases happlies : ∀ f ∈ (x.shownStep a).preconditions, f ∈ facts
  · refine .inl ⟨happlies, _, by rw [hempty.2 happlies]; rfl, ?_⟩
    have hlists := (h.kept ha hneg).insertMany ha hpos
    rw [State.foldl_insert_eq] at hlists
    have hdeleted : facts.filter (· ∉ x.negative.members.map (·.shown a)) =
        facts.filter (· ∉ (x.shownStep a).deleted) := by
      simp [Action.shownStep]
    have hadded : (x.positive.members.map (·.shown a)).eraseDups =
        (x.shownStep a).added.eraseDups := by
      have hagain := eraseDups_eraseDups_append (x.positive.members.map (·.shown a)) []
      rw [List.append_nil, List.append_nil] at hagain
      exact hagain.symm
    rw [hdeleted, hadded] at hlists
    exact hlists
  · refine .inr ⟨by simpa using happlies, ?_⟩
    rw [if_pos]
    simpa using mt hempty.1 happlies

/-- **The rest of a plan**: it is replayed if all its steps apply, and else refused at the first one
that does not. -/
theorem applyFrom {actions : List Action}
    (hactions : ∀ x ∈ actions, ∀ l ∈ x.literals, l.isConstant a = true) (index : Nat) :
    ((∀ k, Step.AppliesAt {f | f ∈ facts} (actions.map (·.shownStep a)) k) ∧
      ∃ t, Bench.applyFrom a index s actions = .ok t ∧
        t.Lists a ((actions.map (·.shownStep a)).foldl Step.relist facts)) ∨
    ∃ k x, actions[k]? = some x ∧
      IsLeast {k | ¬Step.AppliesAt {f | f ∈ facts} (actions.map (·.shownStep a)) k} k ∧
      Bench.applyFrom a index s actions = .error ⟨index + k, .missing (x.text a)
        ((x.preconditions.members.map (·.shown a)).filter
          (· ∉ ((actions.map (·.shownStep a)).take k).foldl Step.relist facts))⟩ := by
  induction actions generalizing s facts index with
  | nil => exact .inl ⟨fun _ => Step.appliesAt_nil, s, rfl, h⟩
  | cons x actions ih =>
    obtain ⟨hx, hactions⟩ := List.forall_mem_cons.1 hactions
    rw [List.map_cons]
    rcases h.applyAction ha hx with ⟨happlies, t, ht, hlists⟩ | ⟨⟨f, hf, hnot⟩, herror⟩
    · have hzero : Step.AppliesAt {f | f ∈ facts}
          (x.shownStep a :: actions.map (·.shownStep a)) 0 := Step.appliesAt_cons_zero.2 happlies
      rw [Bench.applyFrom, ht]
      rcases ih hlists hactions (index + 1) with ⟨hall, last, hlast, hlists⟩ |
        ⟨k, y, hy, hleast, herror⟩
      · rw [Step.setOf_mem_relist] at hall
        refine .inl ⟨fun k => ?_, last, hlast, hlists⟩
        cases k with
        | zero => exact hzero
        | succ k => exact Step.appliesAt_cons_succ.2 (hall k)
      · rw [Step.setOf_mem_relist] at hleast
        refine .inr ⟨k + 1, y, hy, Step.isLeast_cons_succ hzero hleast, ?_⟩
        rw [Nat.add_right_comm] at herror
        exact herror
    · refine .inr ⟨0, x, rfl, ⟨fun hzero => ?_, fun _ _ => Nat.zero_le _⟩, ?_⟩
      · exact hnot (Step.appliesAt_cons_zero.1 hzero hf)
      · rw [Bench.applyFrom, herror]
        rfl

end Lists

end IndexedSet

/-! ### Plans on a workbench -/

namespace Bench

/-- An operation comes to one answer. -/
theorem Gives.unique {α : Type} {m : Bench α} {b b' b'' : Workbench} {x y : α}
    (h : Gives m b x b') (h' : Gives m b y b'') : y = x ∧ b'' = b' := by
  cases h.symm.trans h'
  exact ⟨rfl, rfl⟩

theorem gives_actions {b : Workbench} {plan : List Handle} {actions : List Action}
    (h : List.Forall₂ (fun h x => b.items[h]? = some (.action x)) plan actions) :
    Gives (Bench.actions plan) b actions b := by
  obtain ⟨found, hfound, heq⟩ := gives_mapM_of_forall₂ (f := action) (R := Eq)
    (h.imp fun _ x hx => ⟨x, gives_action hx, rfl⟩)
  rw [List.forall₂_eq_eq_eq] at heq
  rw [Bench.actions, ← heq]
  exact hfound

variable {b : Workbench} {initial goals : List Literal} {plan : List Handle}
  {actions : List Action}

section

variable (hplan : List.Forall₂ (fun h x => b.items[h]? = some (.action x)) plan actions)

include hplan

theorem run_runPlan : (runPlan initial plan).run.run b =
    (match applyFrom b.arena 0 (.ofList b.arena initial) actions with
      | .ok t => .ok t
      | .error e => .error (.run e), b) := by
  rw [runPlan, gives_arena.run_bind, (gives_actions hplan).run_bind]
  cases applyFrom b.arena 0 (.ofList b.arena initial) actions <;> rfl

theorem gives_achieves : Gives (achieves initial plan goals) b
    (match applyFrom b.arena 0 (.ofList b.arena initial) actions with
      | .ok t => t.containsAll b.arena goals
      | .error _ => false) b := by
  rw [achieves]
  refine gives_arena.bind ((gives_actions hplan).bind ?_)
  cases applyFrom b.arena 0 (.ofList b.arena initial) actions <;> exact gives_pure _

/-- A plan is replayed, or refused at the first step that does not apply. -/
theorem runPlan_cases (hb : b.arena.Sound)
    (hinitial : ∀ l ∈ initial, l.isConstant b.arena = true)
    (hactions : ∀ x ∈ actions, ∀ l ∈ x.literals, l.isConstant b.arena = true) :
    let facts := initial.map (·.shown b.arena)
    let steps := actions.map (·.shownStep b.arena)
    ((∀ k, Step.AppliesAt {f | f ∈ facts} steps k) ∧
      ∃ t, Gives (runPlan initial plan) b t b ∧
        t.Lists b.arena (steps.foldl Step.relist facts.eraseDups) ∧
        ∀ goals, Gives (achieves initial plan goals) b (t.containsAll b.arena goals) b) ∨
    ∃ k x, actions[k]? = some x ∧ IsLeast {k | ¬Step.AppliesAt {f | f ∈ facts} steps k} k ∧
      (runPlan initial plan).run.run b = (.error (.run ⟨k, .missing (x.text b.arena)
        ((x.preconditions.members.map (·.shown b.arena)).filter
          (· ∉ (steps.take k).foldl Step.relist facts.eraseDups))⟩), b) ∧
      ∀ goals, Gives (achieves initial plan goals) b false b := by
  intro facts steps
  have hlists := IndexedSet.Lists.ofList hb hinitial
  rw [State.ofList_eq_eraseDups] at hlists
  have hrun : (runPlan initial plan).run.run b = _ := run_runPlan hplan
  have hanswer : ∀ goals, Gives (achieves initial plan goals) b _ b := fun _ => gives_achieves hplan
  have hcases := hlists.applyFrom hb hactions 0
  rw [Step.setOf_mem_eraseDups] at hcases
  rcases hcases with ⟨hall, t, ht, hlists⟩ | ⟨k, x, hx, hleast, herror⟩
  · rw [ht] at hrun hanswer
    exact .inl ⟨hall, t, hrun, hlists, hanswer⟩
  · rw [Nat.zero_add] at herror
    rw [herror] at hrun hanswer
    exact .inr ⟨k, x, hx, hleast, hrun, hanswer⟩

end

/-- **Replaying a plan is what plans mean.** The initial facts are taken as a set, and each step
takes away what it deletes and then adds what it adds. The plan is replayed exactly if each step
finds its preconditions there. What is left of the initial facts then keeps its order, and what is
new comes to the end. Else the error names the first step that does not find them, and what it
misses. Nothing on the workbench is changed by it. -/
theorem replay_is_strips (hb : b.arena.Sound)
    (hplan : List.Forall₂ (fun h x => b.items[h]? = some (.action x)) plan actions)
    (hinitial : ∀ l ∈ initial, l.isConstant b.arena = true)
    (hactions : ∀ x ∈ actions, ∀ l ∈ x.literals, l.isConstant b.arena = true)
    (hgoals : ∀ l ∈ goals, l.isConstant b.arena = true) :
    let facts := initial.map (·.shown b.arena)
    let steps := actions.map (·.shownStep b.arena)
    ((∃ t, Gives (runPlan initial plan) b t b) ↔ ∀ k, Step.AppliesAt {f | f ∈ facts} steps k) ∧
    (∀ t b', Gives (runPlan initial plan) b t b' → b' = b ∧
      {f | f ∈ t.items.map (·.shown b.arena)} = steps.foldl Step.image {f | f ∈ facts} ∧
      (t.items.map (·.shown b.arena)).Nodup ∧
      t.items.map (·.shown b.arena) = steps.foldl Step.relist facts.eraseDups) ∧
    (∀ e b', (runPlan initial plan).run.run b = (.error e, b') → b' = b ∧
      ∃ k x, actions[k]? = some x ∧ IsLeast {k | ¬Step.AppliesAt {f | f ∈ facts} steps k} k ∧
        e = .run ⟨k, .missing (x.text b.arena)
          ((x.preconditions.members.map (·.shown b.arena)).filter
            (· ∉ (steps.take k).foldl Step.relist facts.eraseDups))⟩) ∧
    ∃ answer, Gives (achieves initial plan goals) b answer b ∧ (answer = true ↔
      ∃ t, Gives (runPlan initial plan) b t b ∧
        ∀ l ∈ goals, l.shown b.arena ∈ t.items.map (·.shown b.arena)) := by
  intro facts steps
  rcases runPlan_cases hplan hb hinitial hactions with
    ⟨hall, t, hrun, hlists, hanswer⟩ | ⟨k, x, hx, hleast, hrun, hanswer⟩
  · refine ⟨⟨fun _ => hall, fun _ => ⟨t, hrun⟩⟩, fun t' b' h => ?_, fun e b' h => ?_,
      _, hanswer goals, ?_⟩
    · obtain ⟨rfl, rfl⟩ := Gives.unique hrun h
      rw [hlists.shown]
      refine ⟨rfl, ?_, hlists.nodup, rfl⟩
      rw [Step.setOf_mem_foldl_relist, Step.setOf_mem_eraseDups]
    · cases hrun.symm.trans h
    · rw [hlists.containsAll_iff hb hgoals]
      constructor
      · intro h
        exact ⟨t, hrun, by rwa [hlists.shown]⟩
      · rintro ⟨t', ht', h⟩
        obtain ⟨rfl, -⟩ := Gives.unique hrun ht'
        rwa [hlists.shown] at h
  · have hfails : ∀ {t b'}, ¬Gives (runPlan initial plan) b t b' := by
      intro t b' h
      cases hrun.symm.trans h
    refine ⟨⟨fun ⟨t, h⟩ => absurd h hfails, fun hall => absurd (hall k) hleast.1⟩,
      fun t b' h => absurd h hfails, fun e b' h => ?_, false, hanswer goals, ?_⟩
    · cases hrun.symm.trans h
      exact ⟨rfl, k, x, hx, hleast, rfl⟩
    · simp only [Bool.false_eq_true, false_iff]
      rintro ⟨t, h, -⟩
      exact hfails h

/-- To boil what is in a kettle takes away that it is full, and says so again. The kettle has two
cells. -/
def boil : Action where
  name := "boil"
  preconditions := ⟨[⟨"full", [.cell 0]⟩]⟩
  negative := ⟨[⟨"full", [.cell 1]⟩]⟩
  positive := ⟨[⟨"full", [.cell 0]⟩, ⟨"hot", [.cell 0]⟩]⟩

/-- To pour from it leaves it empty. -/
def pour : Action where
  name := "pour"
  preconditions := ⟨[⟨"full", [.cell 1]⟩, ⟨"cup", []⟩]⟩
  negative := ⟨[⟨"full", [.cell 0]⟩]⟩
  positive := ⟨[⟨"tea", []⟩]⟩

/-- The two cells of the kettle, and what can be done with it. -/
def teaBench : Workbench where
  arena := ((Arena.empty.newCell (some "kettle") 0).2.newCell (some "kettle") 0).2
  scopes := 1
  items := #[.action boil, .action pour]

/-- The kettle is full, which is said twice, and there is a cup. -/
def teaFacts : List Literal := [⟨"full", [.cell 0]⟩, ⟨"full", [.cell 1]⟩, ⟨"cup", []⟩]

/-- There should be tea, and a hot kettle. -/
def teaGoals : List Literal := [⟨"tea", []⟩, ⟨"hot", [.cell 1]⟩]

/-- Tea can be made once. -/
theorem replay_is_strips_tea :
    (∃ t, Gives (runPlan teaFacts [0, 1]) teaBench t teaBench ∧
      t.items.map (·.shown teaBench.arena) = [⟨"cup", []⟩, ⟨"hot", ["kettle"]⟩, ⟨"tea", []⟩]) ∧
    Gives (achieves teaFacts [0, 1] teaGoals) teaBench true teaBench ∧
    (runPlan teaFacts [0, 1, 1]).run.run teaBench =
      (.error (.run ⟨2, .missing "pour" [⟨"full", ["kettle"]⟩]⟩), teaBench) ∧
    IsLeast {k | ¬Step.AppliesAt {f | f ∈ teaFacts.map (·.shown teaBench.arena)}
      ([boil, pour, pour].map (·.shownStep teaBench.arena)) k} 2 := by
  have hsound : teaBench.arena.Sound :=
    (Arena.Sound.newCell _ _ (Arena.Sound.newCell _ _ Arena.sound_empty).sound).sound
  have hfacts : ∀ l ∈ teaFacts, l.isConstant teaBench.arena = true := by decide
  have hgoals : ∀ l ∈ teaGoals, l.isConstant teaBench.arena = true := by decide
  obtain ⟨-, hresult, -, answer, hanswer, hgoal⟩ := @replay_is_strips teaBench teaFacts teaGoals
    [0, 1] [boil, pour] hsound (.cons rfl (.cons rfl .nil)) hfacts (by decide) hgoals
  obtain ⟨t, ht⟩ : ∃ t, Gives (runPlan teaFacts [0, 1]) teaBench t teaBench := ⟨_, rfl⟩
  obtain ⟨-, -, -, hlist⟩ := hresult t teaBench ht
  have hfinal : t.items.map (·.shown teaBench.arena) =
      [⟨"cup", []⟩, ⟨"hot", ["kettle"]⟩, ⟨"tea", []⟩] := hlist.trans (by decide)
  obtain rfl : answer = true := hgoal.2 ⟨t, ht, by rw [hfinal]; decide⟩
  have hfails : (runPlan teaFacts [0, 1, 1]).run.run teaBench =
      (.error (.run ⟨2, .missing "pour" [⟨"full", ["kettle"]⟩]⟩), teaBench) := rfl
  obtain ⟨-, -, herror, -⟩ := @replay_is_strips teaBench teaFacts teaGoals [0, 1, 1]
    [boil, pour, pour] hsound (.cons rfl (.cons rfl (.cons rfl .nil))) hfacts (by decide) hgoals
  obtain ⟨-, k, x, -, hleast, heq⟩ := herror _ _ hfails
  obtain ⟨rfl, -⟩ := RunError.mk.inj (BenchError.run.inj heq)
  exact ⟨⟨t, ht, hfinal⟩, hanswer, hfails, hleast⟩

end Bench

end Strips
