import Strips.Proofs.Actors
import Strips.Workbench.Layers

/-!
# Exclusions of actions

The actions of a layer are looked up by their keys, and a pair of actions is noted with the keys of
both. As long as the actions stay what they are, the pairs of an action layer are a relation on the
steps that the actions say, and looking for them is looking for the conflicts of these steps.

## Main definitions

* `Exclusions.Relates` – the exclusions are a relation on steps, now and later.

## Main results

* `Exclusions.Relates.insertActions` – noting a pair.
* `Bench.gives_findMutexes` – the pairs that are found are those of steps in conflict.
-/

namespace Strips

/-! ### Keys are compared as steps -/

theorem ActionKey.same_congr {k l : ActionKey} (h : k.same l = true) (m : ActionKey) :
    k.same m = l.same m := by
  simp only [ActionKey.same, Bool.and_eq_true, beq_iff_eq, sameElements_iff] at h
  obtain ⟨⟨⟨⟨⟨hnoop, hname⟩, harguments⟩, hpre⟩, hneg⟩, hpos⟩ := h
  rw [Bool.eq_iff_iff]
  simp only [ActionKey.same, Bool.and_eq_true, beq_iff_eq, sameElements_iff, hnoop, hname,
    harguments, hpre, hneg, hpos]

/-- A mark that stands for one step stands for another one if the steps are the same. -/
theorem Mark.same_key {mark : Mark} {s : Step} (h : mark.same (.key s.key) = true) (t : Step) :
    mark.same (.key t.key) = (s == t) := by
  cases mark with
  | key k =>
    have hk : k.same s.key = true := h
    show k.same t.key = (s == t)
    rw [ActionKey.same_congr hk, Step.same_key]
  | literal _ | object _ => cases h

/-! ### Noted actions -/

/-- An action that says a step, as it is noted. -/
def Step.noted (h : Handle) (s : Step) : Noted := ⟨.object h, .key s.key⟩

namespace Workbench

variable {b : Workbench} {a : Arena} {h k h' k' : Handle} {s t s' t' : Step}

theorem same_object (hs : b.IsStep a h s) (ht : b.IsStep a k t) :
    b.same (.object h) (.object k) = (s == t) := by
  obtain ⟨x, hx, rfl, hxs⟩ := hs.exists_enacts
  obtain ⟨y, hy, rfl, hyt⟩ := ht.exists_enacts
  rw [← matches_enacts b a hxs hyt, same, hx, hy]
  show (x.handle == y.handle || (x.handle == y.handle || x.action.sameInstance y.action)) = _
  rw [← Bool.or_assoc, Bool.or_self]
  rfl

theorem note_object (hs : b.IsStep a h s) : b.note (.object h) = s.noted h := by
  obtain ⟨x, hx, hmeans⟩ := hs
  rw [note, mark, actor?_of_action hx, Option.bind_some, hmeans.key]
  rfl

theorem finds_noted_step (hs : b.IsStep a h s) (ht : b.IsStep a k t) :
    b.finds (s.noted h) (t.noted k) = (s == t) := by
  show (s.key.same t.key && b.same (.object h) (.object k)) = (s == t)
  rw [Step.same_key, same_object hs ht, Bool.and_self]

theorem exclusion_object (hs : b.IsStep a h s) (ht : b.IsStep a k t) :
    b.exclusion (.object h) (.object k) =
      if s == t then [s.noted h] else [s.noted h, t.noted k] := by
  rw [exclusion, note_object hs, note_object ht, finds_noted_step hs ht]

/-- A pair of different actions is found by one of the same actions, in whatever order. -/
theorem findsPair_steps (hs : b.IsStep a h s) (ht : b.IsStep a k t) (hs' : b.IsStep a h' s')
    (ht' : b.IsStep a k' t') (hst : (s == t) = false) :
    b.findsPair [s.noted h, t.noted k] [s'.noted h', t'.noted k'] =
      ((s' == s && t' == t) || (t' == s && s' == t)) := by
  have hmark : ∀ (u v : Step) (i j : Handle), (u.noted i).mark.same (v.noted j).mark = (u == v) :=
    fun u v _ _ => Step.same_key u v
  have hs₁ : ¬((s == s') = true ∧ (t == s') = true) := fun ⟨h₁, h₂⟩ =>
    Bool.eq_false_iff.1 hst (BEq.trans h₁ (BEq.symm h₂))
  have hs₂ : ¬((s == t') = true ∧ (t == t') = true) := fun ⟨h₁, h₂⟩ =>
    Bool.eq_false_iff.1 hst (BEq.trans h₁ (BEq.symm h₂))
  simp only [findsPair, List.length_cons, List.length_nil, List.all_cons, List.all_nil,
    List.any_cons, List.any_nil, finds_noted_step hs hs', finds_noted_step hs ht',
    finds_noted_step ht hs', finds_noted_step ht ht', hmark, BEq.comm (a := s'),
    BEq.comm (a := t')]
  cases s == s' <;> cases s == t' <;> cases t == s' <;> cases t == t' <;> simp_all

end Workbench

/-! ### Relations of steps -/

namespace Exclusions

theorem rowOf_addToRow_key (pair : Exclusion) (s t : Step) : ∀ rows : List (Mark × List Exclusion),
    rowOf (addToRow pair (.key s.key) rows) (.key t.key) =
      if s == t then pair :: rowOf rows (.key t.key) else rowOf rows (.key t.key)
  | [] => by
    have hmark : (Mark.key s.key).same (.key t.key) = (s == t) := Step.same_key s t
    rw [addToRow, rowOf, List.find?_cons, hmark]
    cases s == t <;> rfl
  | (mark, pairs) :: rest => by
    have ih := rowOf_addToRow_key pair s t rest
    rw [addToRow]
    by_cases hs : mark.same (.key s.key) = true
    · have ht := Mark.same_key hs t
      rw [if_pos hs]
      simp only [rowOf, List.find?_cons, ht]
      cases s == t <;> rfl
    · rw [if_neg hs]
      by_cases ht : mark.same (.key t.key) = true
      · have hst : (s == t) = false := by
          rw [BEq.comm, ← Mark.same_key ht, Bool.eq_false_iff]
          exact hs
        simp only [rowOf, List.find?_cons, ht, hst, Bool.false_eq_true, if_false]
      · simp only [rowOf, List.find?_cons, ht]
        exact ih

/-- A pair of different actions is put into the rows of both. -/
theorem rowOf_addToRow_both (pair : Exclusion) {s t : Step} (hst : (s == t) = false) (u : Step)
    (rows : List (Mark × List Exclusion)) :
    rowOf (addToRow pair (.key t.key) (addToRow pair (.key s.key) rows)) (.key u.key) =
      if s == u || t == u then pair :: rowOf rows (.key u.key) else rowOf rows (.key u.key) := by
  rw [rowOf_addToRow_key, rowOf_addToRow_key]
  cases hsu : s == u with
  | false => rw [Bool.false_or, if_neg Bool.false_ne_true]
  | true =>
    have htu : (t == u) = false := by rw [← BEq.congr_right hsu, BEq.comm, hst]
    rw [htu]
    rfl

/-- Exclusions are a relation on the steps of actions, and stay it on every workbench on which the
actions stay what they are. -/
structure Relates (b : Workbench) (a : Arena) (x : Exclusions) (r : PairRelation Step) : Prop where
  isSymm : r.IsSymm
  contains : ∀ {b' : Workbench}, b.KeepsActions b' → ∀ {h k : Handle} {s t : Step},
    b'.IsStep a h s → b'.IsStep a k t →
      x.contains b' (.object h) (.object k) = r.contains s t

variable {b : Workbench} {a : Arena} {x : Exclusions} {r : PairRelation Step}

/-- Exclusions are found in the row of the first action. -/
theorem contains_object {h k : Handle} {s t : Step} (hs : b.IsStep a h s) (ht : b.IsStep a k t) :
    x.contains b (.object h) (.object k) = (rowOf x.rows (.key s.key)).any
      (b.findsPair (if s == t then [s.noted h] else [s.noted h, t.noted k])) := by
  rw [contains, Workbench.exclusion_object hs ht, finds]
  cases s == t <;> rfl

theorem relates_empty (b : Workbench) (a : Arena) : Relates b a {} {} where
  isSymm := PairRelation.isSymm_empty
  contains _ _ _ _ _ hs ht := contains_object hs ht

/-- A pair of different actions that was put into the rows is found by actions of the same steps. -/
theorem any_findsPair_addToRow {h k i j : Handle} {u v s t : Step} (hu : b.IsStep a h u)
    (hv : b.IsStep a k v) (hs : b.IsStep a i s) (ht : b.IsStep a j t) (hst : (s == t) = false)
    (rows : List (Mark × List Exclusion)) :
    (rowOf (addToRow [s.noted i, t.noted j] (.key t.key)
        (addToRow [s.noted i, t.noted j] (.key s.key) rows)) (.key u.key)).any
      (b.findsPair (if u == v then [u.noted h] else [u.noted h, v.noted k])) =
    ((rowOf rows (.key u.key)).any
      (b.findsPair (if u == v then [u.noted h] else [u.noted h, v.noted k])) ||
        (s == u && t == v) || (t == u && s == v)) := by
  rw [rowOf_addToRow_both _ hst]
  cases huv : u == v with
  | true =>
    -- one action alone does not find a pair
    have hnone : b.findsPair [u.noted h] [s.noted i, t.noted j] = false := rfl
    have hleft : (s == u && t == v) = false := Bool.eq_false_iff.2 fun hboth => by
      obtain ⟨hsu, htv⟩ := Bool.and_eq_true_iff.1 hboth
      exact Bool.eq_false_iff.1 hst (BEq.trans hsu (BEq.trans huv (BEq.symm htv)))
    have hright : (t == u && s == v) = false := Bool.eq_false_iff.2 fun hboth => by
      obtain ⟨htu, hsv⟩ := Bool.and_eq_true_iff.1 hboth
      exact Bool.eq_false_iff.1 hst (BEq.trans hsv (BEq.trans (BEq.symm huv) (BEq.symm htu)))
    rw [hleft, hright, Bool.or_false, Bool.or_false, if_pos rfl]
    split
    · rw [List.any_cons, hnone, Bool.false_or]
    · rfl
  | false =>
    have hfinds := Workbench.findsPair_steps hu hv hs ht huv
    rw [if_neg Bool.false_ne_true]
    split
    · rw [List.any_cons, hfinds, Bool.or_comm, Bool.or_assoc]
    · rename_i hrow
      obtain ⟨hsu, htu⟩ := Bool.or_eq_false_iff.1 (Bool.eq_false_iff.2 hrow)
      rw [hsu, htu, Bool.false_and, Bool.false_and, Bool.or_false, Bool.or_false]

/-- **Noting a pair** of actions relates their steps, unless they are the same. -/
theorem Relates.insertActions (hx : x.Relates b a r) {p q : Actor} {s t : Step}
    (hp : b.Enacts a p s) (hq : b.Enacts a q t) :
    (x.insertActions b p q).Relates b a (if s == t then r else r.add s t) := by
  rw [Exclusions.insertActions, Workbench.matches_enacts b a hp hq]
  cases hst : s == t with
  | true => exact hx
  | false =>
    have hs := hp.isStep
    have ht := hq.isStep
    have hpair : b.exclusion (.object p.handle) (.object q.handle) =
        [s.noted p.handle, t.noted q.handle] := by
      rw [Workbench.exclusion_object hs ht, hst]
      rfl
    have hfound : x.finds b [s.noted p.handle, t.noted q.handle] = r.contains s t := by
      rw [← hx.contains (fun _ _ h => h) hs ht, Exclusions.contains, hpair]
    rw [if_neg Bool.false_ne_true, if_neg Bool.false_ne_true, insert, hpair, hfound]
    cases hknown : r.contains s t with
    | true =>
      have hr : r.add s t = r := if_pos hknown
      rw [hr]
      exact hx
    | false =>
      refine ⟨hx.isSymm.add s t, ?_⟩
      intro b' hb' h k u v hu hv
      have hold := hx.contains hb' hu hv
      rw [contains_object hu hv] at hold
      rw [contains_object hu hv, PairRelation.contains_add r hx.isSymm, ← hold]
      exact any_findsPair_addToRow hu hv (hs.mono hb') (ht.mono hb') hst x.rows

/-! ### Noting several pairs -/

/-- A pair of actions says a pair of steps. -/
def EnactsPair (b : Workbench) (a : Arena) (p : Actor × Actor) (q : Step × Step) : Prop :=
  b.Enacts a p.1 q.1 ∧ b.Enacts a p.2 q.2

/-- The pairs of different steps are added. -/
theorem Relates.foldl_insertActions {ps : List (Actor × Actor)} {qs : List (Step × Step)}
    (h : List.Forall₂ (EnactsPair b a) ps qs) : ∀ {x : Exclusions} {r : PairRelation Step},
      x.Relates b a r → (ps.foldl (fun r (p, q) => r.insertActions b p q) x).Relates b a
        (r.addAll (qs.filter fun q => !(q.1 == q.2))) := by
  induction h with
  | nil => exact fun hx => hx
  | @cons p q ps qs hpq _ ih =>
    intro x r hx
    have hnext := ih (hx.insertActions hpq.1 hpq.2)
    rw [List.filter_cons]
    cases hq : q.1 == q.2 <;> simpa [hq] using hnext

/-! ### The pairs of a fact layer -/

/-- A pair that was noted for constant literals says a pair of facts. -/
def SaysPair (a : Arena) (e : Exclusion) (p : Fact × Fact) : Prop :=
  ∃ l m : Literal, e = Literal.pair a l m ∧ l.isConstant a = true ∧ m.isConstant a = true ∧
    l.shown a = p.1 ∧ m.shown a = p.2

/-- The pairs of exclusions are those of the relation, in one order or the other. -/
theorem Says.exists_pairs {x : Exclusions} {r : PairRelation Fact} (h : x.Says a r) :
    ∃ pairs : List (Fact × Fact), List.Forall₂ (SaysPair a) x.pairs pairs ∧
      ∀ f g, (f, g) ∈ pairs ∨ (g, f) ∈ pairs ↔ r.contains f g = true := by
  induction h with
  | empty =>
    refine ⟨[], .nil, fun f g => ?_⟩
    simp [PairRelation.contains, PairRelation.partners, PairRelation.partnersIn]
  | @insert x r c l m hmeans hc hl hm ih =>
    obtain ⟨pairs, hpairs, hmem⟩ := ih
    have hcontains := hmeans.contains hc hl hm
    cases hknown : x.contains c (.literal l) (.literal m) with
    | true =>
      have hx : x.insert c (.literal l) (.literal m) = x := if_pos hknown
      have hr : r.add (l.shown a) (m.shown a) = r := if_pos (hcontains.symm.trans hknown)
      rw [hx, hr]
      exact ⟨pairs, hpairs, hmem⟩
    | false =>
      have hx : (x.insert c (.literal l) (.literal m)).pairs = Literal.pair a l m :: x.pairs := by
        have hnew : x.finds c (c.exclusion (.literal l) (.literal m)) = false := hknown
        rw [Exclusions.insert, hnew, if_neg Bool.false_ne_true,
          Workbench.exclusion_literal hc hl hm]
      refine ⟨(l.shown a, m.shown a) :: pairs, ?_, fun f g => ?_⟩
      · rw [hx]
        exact .cons ⟨l, m, rfl, hl, hm, rfl, rfl⟩ hpairs
      · rw [PairRelation.contains_add r hmeans.tidy.isSymm]
        simp only [Bool.or_eq_true, ← hmem, Bool.and_eq_true, beq_iff_eq, List.mem_cons,
          Prod.mk.injEq]
        grind

end Exclusions

/-! ### The pairs that are found -/

namespace ActionLayer

/-- The pairs of a step of one list with one of another. -/
def allPairs {α : Type} (xs ys : List α) : List (α × α) :=
  xs.flatMap fun x => ys.map fun y => (x, y)

theorem across_eq_filter (ss ts : List Step) :
    across ss ts = (allPairs ss ts).filter fun q => !(q.1 == q.2) := by
  simp only [across, allPairs, List.filter_flatMap, List.filter_map, Function.comp_def]

/-- The pairs of which those of different steps are found. -/
def candidates (consumers effects : Index Fact Step) (needed : List (Fact × Fact)) :
    List (Step × Step) :=
  (effects.flatMap fun row =>
    allPairs (row.2.filter (·.deleted.contains row.1))
      (row.2.filter (·.added.contains row.1) ++ consumers.lookup row.1)) ++
  needed.flatMap fun p => allPairs (consumers.lookup p.1) (consumers.lookup p.2)

theorem foundPairs_eq_filter (consumers effects : Index Fact Step) (needed : List (Fact × Fact)) :
    foundPairs consumers effects needed =
      (candidates consumers effects needed).filter fun q => !(q.1 == q.2) := by
  simp only [foundPairs, candidates, List.filter_append, List.filter_flatMap, across_eq_filter]

end ActionLayer

namespace Workbench

variable {b : Workbench} {a : Arena}

theorem forall₂_allPairs {xs ys : List Actor} {ss ts : List Step}
    (hx : List.Forall₂ (b.Enacts a) xs ss) (hy : List.Forall₂ (b.Enacts a) ys ts) :
    List.Forall₂ (Exclusions.EnactsPair b a) (xs.flatMap fun x => ys.map fun y => (x, y))
      (ActionLayer.allPairs ss ts) :=
  List.rel_flatMap hx fun _ _ hxs => List.rel_map (fun _ _ hyt => ⟨hxs, hyt⟩) hy

/-- What a literal says now is a fact. -/
def Voices (x : Saying) (f : Fact) : Prop := x.resolved = f.literal

theorem matches_voices : Index.Matches Voices := by
  intro x f y g hx hy
  show (x.resolved == y.resolved) = (f == g)
  rw [hx, hy, Bool.eq_iff_iff, beq_iff_eq, beq_iff_eq, Fact.literal_injective.eq_iff]

variable (hb : b.Keeps a)

include hb

theorem voices_saying {l : Literal} (hl : l.isConstant a = true) :
    Voices (b.saying l) (l.shown a) :=
  Literal.resolve_of_isConstant hb hl

/-- The actions under what they need, as steps. -/
theorem forall₂_consumers {xs : List Actor} {ts : List Step}
    (h : List.Forall₂ (b.Enacts a) xs ts) :
    List.Forall₂ (Index.RowsMatch Voices (b.Enacts a)) (b.consumers xs)
      (ActionLayer.consumers { steps := ts }) := by
  refine Index.forall₂_fileAll matches_voices (matches_enacts b a) ?_ h .nil
  rintro x t ⟨-, hmeans⟩
  rw [sayings, ← hmeans.preconditions]
  refine List.forall₂_map_left_iff.2 (List.forall₂_map_right_iff.2 (List.forall₂_same.2 ?_))
  exact fun l hl => voices_saying hb (hmeans.constant l (Action.mem_literals.2 (.inl hl)))

variable {consumers : Index Saying Actor} {index : Index Fact Step}
  (hconsumers : List.Forall₂ (Index.RowsMatch Voices (b.Enacts a)) consumers index)

include hconsumers

/-- What arises from one fact. -/
theorem forall₂_interferences {f : Filing} {row : Fact × List Step} (hf : b.Files a f row) :
    List.Forall₂ (Exclusions.EnactsPair b a) (b.interferences consumers f)
      (ActionLayer.allPairs (row.2.filter (·.deleted.contains row.1))
        (row.2.filter (·.added.contains row.1) ++ index.lookup row.1)) := by
  have haffected := forall₂_actors hf.actions
  have hdeleters : List.Forall₂ (b.Enacts a)
      ((b.actors f.actions).filter (·.action.negative.contains b.arena f.literal))
      (row.2.filter (·.deleted.contains row.1)) := by
    refine List.rel_filter ?_ haffected
    rintro x t ⟨-, hmeans⟩
    have hnegative : ∀ l ∈ x.action.negative.members, l.isConstant a = true := fun l hl =>
      hmeans.constant l (Action.mem_literals.2 (.inr (.inl hl)))
    show x.action.negative.contains b.arena f.literal = true ↔ t.deleted.contains row.1 = true
    rw [LiteralSet.contains_of_isConstant hb hnegative hf.constant, hmeans.deleted, hf.shown]
  have hproducers : List.Forall₂ (b.Enacts a)
      ((b.actors f.actions).filter (·.action.positive.contains b.arena f.literal))
      (row.2.filter (·.added.contains row.1)) := by
    refine List.rel_filter ?_ haffected
    rintro x t ⟨-, hmeans⟩
    have hpositive : ∀ l ∈ x.action.positive.members, l.isConstant a = true := fun l hl =>
      hmeans.constant l (Action.mem_literals.2 (.inr (.inr hl)))
    show x.action.positive.contains b.arena f.literal = true ↔ t.added.contains row.1 = true
    rw [LiteralSet.contains_of_isConstant hb hpositive hf.constant, hmeans.added, hf.shown]
  have hneeding : List.Forall₂ (b.Enacts a) (consumers.lookup (b.saying f.literal))
      (index.lookup row.1) := by
    rw [← hf.shown]
    exact Index.forall₂_lookup matches_voices (voices_saying hb hf.constant) hconsumers
  have hall := forall₂_allPairs hdeleters (List.rel_append hproducers hneeding)
  rw [interferences]
  dsimp only
  split
  · rename_i hempty
    rw [List.isEmpty_iff.1 hempty] at hall
    exact hall
  · exact hall

/-- What arises from two facts that exclude each other. -/
theorem forall₂_competitions {e : Exclusion} {p : Fact × Fact} (he : Exclusions.SaysPair a e p) :
    List.Forall₂ (Exclusions.EnactsPair b a) (b.competitions consumers e)
      (ActionLayer.allPairs (index.lookup p.1) (index.lookup p.2)) := by
  obtain ⟨l, m, rfl, hl, hm, hlp, hmp⟩ := he
  have hneeding : ∀ {l : Literal} {f : Fact}, l.isConstant a = true → l.shown a = f →
      List.Forall₂ (b.Enacts a) (consumers.lookup (b.saying l)) (index.lookup f) := by
    rintro l _ hl rfl
    exact Index.forall₂_lookup matches_voices (voices_saying hb hl) hconsumers
  have hpair := forall₂_allPairs (hneeding hl hlp) (hneeding hm hmp)
  rw [Literal.pair]
  split
  · rename_i hlm
    have hself := forall₂_allPairs (hneeding hl hlp) (hneeding hl hlp)
    rw [← hmp, ← hlm, hlp]
    exact hself
  · exact hpair

end Workbench

/-! ### Finding the pairs of a layer -/

theorem Exclusions.Relates.mono {b b' : Workbench} {a : Arena} {x : Exclusions}
    {r : PairRelation Step} (h : x.Relates b a r) (hb : b.KeepsActions b') : x.Relates b' a r :=
  ⟨h.isSymm, fun hb' => h.contains (hb.trans hb')⟩

namespace Bench

variable {b : Workbench} {a : Arena} {handle into : Handle} {actions : List Handle}
  {x : Exclusions} {source : Option Handle}

theorem gives_actionLayer (h : b.items[handle]? = some (.actionLayer actions x)) :
    Gives (actionLayer handle) b (actions, x) b :=
  (gives_item h).bind (gives_pure (actions, x))

/-- Note the pairs of actions that exclude each other, as they are read off a file. -/
def noteConflicts (handle : Handle) (actions : List Handle) (mutexes : Exclusions)
    (source : Option Handle) (into : Handle) : Bench Unit := do
  let b ← get
  let consumers := b.consumers (b.actors actions)
  let interfering := (← file into).filings.flatMap (b.interferences consumers)
  let competing ← match source with
    | some source => pure ((← factLayer source).2.pairs.flatMap (b.competitions consumers))
    | none => pure []
  put handle (.actionLayer actions
    ((interfering ++ competing).foldl (fun r (x, y) => r.insertActions b x y) mutexes))

theorem findMutexes_eq (handle : Handle) (source dependencies : Option Handle) :
    findMutexes handle source dependencies = (do
      let (actions, mutexes) ← actionLayer handle
      let into ← fileOr dependencies
      if dependencies.isNone then actions.forM fun h => register h into
      noteConflicts handle actions mutexes source into) := rfl

/-- The pairs of facts that are looked at: those of a layer, if there is one. -/
def LooksAt (b : Workbench) (a : Arena) (needed : List (Fact × Fact)) : Option Handle → Prop
  | none => needed = []
  | some source => ∃ facts x, b.items[source]? = some (.factLayer facts x) ∧
      List.Forall₂ (Exclusions.SaysPair a) x.pairs needed

theorem LooksAt.mono {b' : Workbench} {needed : List (Fact × Fact)}
    (h : LooksAt b a needed source) (hleaves : b.Leaves b' []) : LooksAt b' a needed source := by
  cases source with
  | none => exact h
  | some source =>
    obtain ⟨facts, x, hitem, hpairs⟩ := h
    exact ⟨facts, x, hleaves hitem List.not_mem_nil, hpairs⟩

/-- **The pairs that are noted** are those that are found among the steps. -/
theorem gives_noteConflicts (hb : b.Keeps a) (hx : x.Relates b a {})
    (hlayer : b.items[handle]? = some (.actionLayer actions x)) {steps : List Step}
    (hactions : List.Forall₂ (b.IsStep a) actions steps) {f : FileItem}
    (hinto : b.items[into]? = some (.file f)) {effects : Index Fact Step}
    (hf : List.Forall₂ (b.Files a) f.filings effects) {needed : List (Fact × Fact)}
    (hsource : LooksAt b a needed source) :
    ∃ b' x', Gives (noteConflicts handle actions x source into) b () b' ∧ b'.arena = b.arena ∧
      b.Leaves b' [handle] ∧ b'.items[handle]? = some (.actionLayer actions x') ∧
      x'.Relates b' a (({} : PairRelation Step).addAll
        (ActionLayer.foundPairs (ActionLayer.consumers { steps }) effects needed)) := by
  have hconsumers := Workbench.forall₂_consumers hb (Workbench.forall₂_actors hactions)
  have hinterfering := List.rel_flatMap hf fun _ _ hrow =>
    Workbench.forall₂_interferences hb hconsumers hrow
  have hput : ∀ y : Item, b.KeepsActions { b with items := b.items.setIfInBounds handle y } :=
    fun y => (b.leaves_set handle y).keepsActions (by simp [hlayer])
  rw [ActionLayer.foundPairs_eq_filter]
  cases source with
  | none =>
    obtain rfl := hsource
    refine ⟨_, _, gives_get.bind ((gives_file hinto).bind ((gives_pure []).bind (gives_put _ _))),
      rfl, b.leaves_set handle _, Workbench.getElem?_set_self hlayer _, ?_⟩
    exact (Exclusions.Relates.foldl_insertActions (List.rel_append hinterfering .nil) hx).mono
      (hput _)
  | some source =>
    obtain ⟨facts, y, hitem, hpairs⟩ := hsource
    have hcompeting := List.rel_flatMap hpairs fun _ _ hpair =>
      Workbench.forall₂_competitions hb hconsumers hpair
    refine ⟨_, _, gives_get.bind ((gives_file hinto).bind
      ((gives_factLayer hitem).bind ((gives_pure _).bind (gives_put _ _)))),
      rfl, b.leaves_set handle _, Workbench.getElem?_set_self hlayer _, ?_⟩
    exact (Exclusions.Relates.foldl_insertActions (List.rel_append hinterfering hcompeting) hx).mono
      (hput _)

/-- A file in which the given steps are filed, each under what it deletes and adds. -/
def Registers (b : Workbench) (a : Arena) (steps : List Step) (into : Handle) : Prop :=
  ∃ f, b.items[into]? = some (.file f) ∧
    List.Forall₂ (b.Files a) f.filings (ActionLayer.effects { steps })

/-- **The pairs of a layer** are found among the steps of its actions, whether the file of the
actions is given or made anew. -/
theorem gives_findMutexes (hb : b.Keeps a)
    (hlayer : b.items[handle]? = some (.actionLayer actions {})) {steps : List Step}
    (hactions : List.Forall₂ (b.IsStep a) actions steps) {needed : List (Fact × Fact)}
    (hsource : LooksAt b a needed source) {dependencies : Option Handle}
    (hdependencies : ∀ into ∈ dependencies, Registers b a steps into) :
    ∃ b' x', Gives (findMutexes handle source dependencies) b () b' ∧ b'.arena = b.arena ∧
      b.Leaves b' [handle] ∧ b'.items[handle]? = some (.actionLayer actions x') ∧
      x'.Relates b' a (({} : PairRelation Step).addAll (ActionLayer.foundPairs
        (ActionLayer.consumers { steps }) (ActionLayer.effects { steps }) needed)) := by
  rw [findMutexes_eq]
  cases dependencies with
  | some into =>
    obtain ⟨f, hinto, hf⟩ := hdependencies into rfl
    obtain ⟨b', x', hgives, hrest⟩ := gives_noteConflicts hb (Exclusions.relates_empty b a) hlayer
      hactions hinto hf hsource
    exact ⟨b', x', (gives_actionLayer hlayer).bind ((gives_pure into).bind hgives), hrest⟩
  | none =>
    -- the new file is the newest object, and the actions are registered there
    let b₁ : Workbench := { b with items := b.items.push (.file {}) }
    have hleaves₁ : b.Leaves b₁ [] := b.leaves_push _
    have hkeeps₁ := hleaves₁.keepsActions (by simp)
    have hfile : b₁.items[b.items.size]? = some (.file {}) := Array.getElem?_push_size
    obtain ⟨b₂, hregister, harena₂, hleaves₂, g, hg, hfiles⟩ := gives_forM_register_files
      (b := b₁) hb (hactions.imp fun _ _ => Workbench.IsStep.mono hkeeps₁) hfile .nil
    have hkeeps₂ := hleaves₂.keepsActions (by simp [hfile])
    have hactions₂ := hactions.imp fun _ _ h => (h.mono hkeeps₁).mono hkeeps₂
    have hold := hleaves₁.of_new hleaves₂
    obtain ⟨b', x', hgives, harena, hleaves, hrest⟩ := gives_noteConflicts (hb.congr harena₂)
      (Exclusions.relates_empty b₂ a) (hold hlayer List.not_mem_nil) hactions₂ hg hfiles
      (hsource.mono hold)
    refine ⟨b', x', ?_, harena.trans harena₂, (hold.trans hleaves).subset (by simp), hrest⟩
    exact (gives_actionLayer hlayer).bind ((gives_add (.file {})).bind (hregister.bind hgives))

end Bench

end Strips
