import Strips.Proofs.Conflicts
import Strips.Proofs.Elaboration
import Strips.Proofs.Finding
import Strips.Proofs.Rounds

/-!
# Actions on a workbench as steps

An instance over constant literals says one step for ever, whatever happens on the workbench. So
what is done with such actions can be compared with what is done with steps: the actions are the
same exactly if the steps are, and filing them comes to the index that filing the steps comes to.

Constant literals are read under the arena `a` of some moment. Later workbenches keep the values
that constants have there (`Workbench.Keeps`).

## Main definitions

* `Action.Says` – an action says a step by constant literals.
* `Workbench.Enacts`, `Workbench.IsStep` – an object does so.
* `Workbench.Files` – a filing holds the actions that a row of an index holds as steps.

## Main results

* `Workbench.matches_enacts` – actions are the same if the steps are.
* `Bench.gives_register_files` – filing an action files the step.
-/

namespace Strips

/-! ### Keys -/

theorem Fact.key_literal (f : Fact) (arena : Arena) :
    f.literal.key arena = (f.name, f.arguments.map some) := by
  simp [Literal.key, Literal.values, Fact.literal, Term.value?, Function.comp_def]

theorem Fact.key_injective : Function.Injective fun f : Fact => f.literal.key .empty := by
  intro f g h
  simp only [key_literal, Prod.mk.injEq] at h
  cases f
  cases g
  obtain rfl := List.map_injective_iff.2 (Option.some_injective _) h.2
  exact congrArg (Fact.mk · _) h.1

theorem sameElements_map {α β : Type} [BEq α] [LawfulBEq α] [BEq β] [LawfulBEq β] {f : α → β}
    (hf : Function.Injective f) (xs ys : List α) :
    sameElements (xs.map f) (ys.map f) = sameElements xs ys := by
  rw [Bool.eq_iff_iff, sameElements_iff, sameElements_iff]
  constructor
  · intro h x
    rw [← List.mem_map_of_injective hf, h, List.mem_map_of_injective hf]
  · intro h y
    simp only [List.mem_map, h]

/-- Instances have the same key exactly if they are the same step. -/
theorem Step.same_key (s t : Step) : s.key.same t.key = (s == t) := by
  have hkeys : ∀ facts others : List Fact,
      sameElements ((facts.map Fact.literal).map (·.key .empty))
        ((others.map Fact.literal).map (·.key .empty)) = sameElements facts others := by
    intro facts others
    rw [List.map_map, List.map_map]
    exact sameElements_map Fact.key_injective facts others
  have harguments : (s.arguments.map some == t.arguments.map some) =
      (s.arguments == t.arguments) := by
    rw [Bool.eq_iff_iff, beq_iff_eq, beq_iff_eq,
      (List.map_injective_iff.2 (Option.some_injective String)).eq_iff]
  show s.key.same t.key = s.same t
  rw [ActionKey.same, Step.same]
  simp only [Step.key, hkeys, harguments]

/-! ### Constant literals -/

namespace LiteralSet

variable {b : Workbench} {a : Arena} (hb : b.Keeps a) {s : LiteralSet}
  (hs : ∀ l ∈ s.members, l.isConstant a = true) {l : Literal} (hl : l.isConstant a = true)

include hb hs hl

/-- A set of constant literals is looked up by what they say. -/
theorem contains_of_isConstant :
    s.contains b.arena l = (s.members.map (·.shown a)).contains (l.shown a) := by
  have hresolve : s.members.map (·.resolve b.arena) =
      (s.members.map (·.shown a)).map Fact.literal := by
    rw [List.map_map]
    exact List.map_congr_left fun m hm => Literal.resolve_of_isConstant hb (hs m hm)
  rw [Bool.eq_iff_iff, contains_iff, hresolve, Literal.resolve_of_isConstant hb hl,
    List.mem_map_of_injective Fact.literal_injective, List.contains_iff_mem]

end LiteralSet

/-! ### Actions -/

/-- An instance says a step by constant literals. -/
structure Action.Says (a : Arena) (x : Action) (t : Step) : Prop where
  name : x.name = t.name
  noop : x.noop = t.noop
  key : x.key = some t.key
  constant : ∀ l ∈ x.literals, l.isConstant a = true
  preconditions : x.preconditions.members.map (·.shown a) = t.preconditions
  deleted : x.negative.members.map (·.shown a) = t.deleted
  added : x.positive.members.map (·.shown a) = t.added

theorem Fact.shown_literal (f : Fact) (arena : Arena) : f.literal.shown arena = f := by
  simp [Literal.shown, Literal.values, Fact.literal, Term.value?, Term.valueText,
    Function.comp_def]

theorem Step.says_toAction (t : Step) (a : Arena) : t.toAction.Says a t := by
  have hshown : ∀ facts : List Fact, (facts.map Fact.literal).map (·.shown a) = facts := by
    intro facts
    rw [List.map_map]
    exact List.map_id'' (fun f => f.shown_literal a) facts
  refine ⟨rfl, rfl, rfl, fun l hl => ?_, hshown _, hshown _, hshown _⟩
  have hliteral : ∃ f : Fact, l = f.literal := by
    rcases Action.mem_literals.1 hl with hl | hl | hl
    all_goals
      obtain ⟨f, -, rfl⟩ := List.mem_map.1 hl
      exact ⟨f, rfl⟩
  obtain ⟨f, rfl⟩ := hliteral
  simp [Fact.literal, Literal.isConstant, Term.isConstant]

namespace Workbench

variable {b b' : Workbench} {a : Arena}

/-- An action object, as it is now, says a step. -/
def Enacts (b : Workbench) (a : Arena) (x : Actor) (t : Step) : Prop :=
  b.actor? x.handle = some x ∧ x.action.Says a t

/-- The action of a handle says a step. -/
def IsStep (b : Workbench) (a : Arena) (h : Handle) (t : Step) : Prop :=
  ∃ x, b.items[h]? = some (.action x) ∧ x.Says a t

theorem actor?_of_action {h : Handle} {x : Action} (hx : b.items[h]? = some (.action x)) :
    b.actor? h = some ⟨h, x⟩ := by
  rw [actor?, hx]

theorem IsStep.exists_enacts {h : Handle} {t : Step} (ht : b.IsStep a h t) :
    ∃ x, b.actor? h = some x ∧ x.handle = h ∧ b.Enacts a x t := by
  obtain ⟨x, hx, hmeans⟩ := ht
  have hactor := actor?_of_action hx
  exact ⟨⟨h, x⟩, hactor, rfl, hactor, hmeans⟩

theorem Enacts.isStep {x : Actor} {t : Step} (hx : b.Enacts a x t) : b.IsStep a x.handle t := by
  obtain ⟨hactor, hmeans⟩ := hx
  refine ⟨x.action, ?_, hmeans⟩
  rw [actor?] at hactor
  split at hactor
  · rename_i y hy
    rw [hy, ← Option.some.inj hactor]
  · cases hactor

/-- **Actions are the same exactly if the steps are.** -/
theorem matches_enacts (b : Workbench) (a : Arena) : Index.Matches (b.Enacts a) := by
  rintro x s y t ⟨hx, hs⟩ ⟨hy, ht⟩
  have hinstance : x.action.sameInstance y.action = (s == t) := by
    rw [Action.sameInstance, hs.key, ht.key]
    exact Step.same_key s t
  show (x.handle == y.handle || x.action.sameInstance y.action) = (s == t)
  rw [hinstance]
  by_cases hxy : x.handle = y.handle
  · -- one object has one key
    obtain rfl : x = y := Option.some.inj (by rw [← hx, ← hy, hxy])
    have hkey : s.key = t.key := Option.some.inj (hs.key.symm.trans ht.key)
    have hst : (s == t) = true := by
      rw [← Step.same_key, hkey]
      exact ActionKey.same_self _
    rw [hst, Bool.or_true]
  · rw [beq_eq_false_iff_ne.2 hxy, Bool.false_or]

/-- The actions of handles are the steps of handles. -/
theorem forall₂_actors {hs : List Handle} {ts : List Step}
    (h : List.Forall₂ (b.IsStep a) hs ts) : List.Forall₂ (b.Enacts a) (b.actors hs) ts := by
  induction h with
  | nil => exact .nil
  | @cons h t hs ts hht _ ih =>
    obtain ⟨x, hx, -, henacts⟩ := hht.exists_enacts
    rw [actors, List.filterMap_cons, hx]
    exact .cons henacts ih

/-! ### Workbenches with the same actions -/

/-- The actions of one workbench are objects of another one. -/
def KeepsActions (b b' : Workbench) : Prop :=
  ∀ ⦃h : Handle⦄ ⦃x : Action⦄, b.items[h]? = some (.action x) →
    b'.items[h]? = some (.action x)

theorem KeepsActions.trans {b'' : Workbench} (h : b.KeepsActions b') (h' : b'.KeepsActions b'') :
    b.KeepsActions b'' := fun _ _ hx => h' (h hx)

theorem Keeps.congr (hb : b.Keeps a) (h : b'.arena = b.arena) : b'.Keeps a := by
  intro k hk
  rw [h]
  exact hb k hk

/-- The objects of one workbench are those of another one, except for the given handles. -/
def Leaves (b b' : Workbench) (hs : List Handle) : Prop :=
  ∀ ⦃h : Handle⦄ ⦃it : Item⦄, b.items[h]? = some it → h ∉ hs → b'.items[h]? = some it

theorem Leaves.refl (b : Workbench) (hs : List Handle) : b.Leaves b hs := fun _ _ hit _ => hit

theorem Leaves.trans {b'' : Workbench} {hs ks : List Handle} (h : b.Leaves b' hs)
    (h' : b'.Leaves b'' ks) : b.Leaves b'' (hs ++ ks) := by
  intro k it hit hk
  rw [List.mem_append, not_or] at hk
  exact h' (h hit hk.1) hk.2

theorem Leaves.subset {hs ks : List Handle} (h : b.Leaves b' hs) (hsub : hs ⊆ ks) :
    b.Leaves b' ks := fun _ _ hit hk => h hit fun hmem => hk (hsub hmem)

theorem leaves_push (b : Workbench) (x : Item) :
    b.Leaves { b with items := b.items.push x } [] := fun _ _ hit _ => getElem?_push_of_some hit

theorem leaves_set (b : Workbench) (h : Handle) (x : Item) :
    b.Leaves { b with items := b.items.setIfInBounds h x } [h] := by
  intro k it hit hk
  show (b.items.setIfInBounds h x)[k]? = some it
  rw [getElem?_set_of_ne (fun heq => hk (List.mem_singleton.2 heq.symm)), hit]

/-- What is done to a new object changes none of the old ones. -/
theorem Leaves.of_new {b'' : Workbench} (h : b.Leaves b' []) (h' : b'.Leaves b'' [b.items.size]) :
    b.Leaves b'' [] := by
  intro k it hit _
  refine h' (h hit List.not_mem_nil) fun hk => ?_
  obtain ⟨hlt, -⟩ := Array.getElem?_eq_some_iff.1 hit
  exact Nat.ne_of_lt hlt (List.mem_singleton.1 hk)

/-- Actions stay if only other objects change. -/
theorem Leaves.keepsActions {hs : List Handle} (h : b.Leaves b' hs)
    (hhs : ∀ k ∈ hs, ∀ x, b.items[k]? ≠ some (.action x)) : b.KeepsActions b' :=
  fun k x hx => h hx fun hk => hhs k hk x hx

theorem IsStep.mono (hb : b.KeepsActions b') {h : Handle} {t : Step} (ht : b.IsStep a h t) :
    b'.IsStep a h t := by
  obtain ⟨x, hx, hmeans⟩ := ht
  exact ⟨x, hb hx, hmeans⟩

/-! ### Filings -/

/-- A filing holds the actions that a row of an index holds as steps. -/
structure Files (b : Workbench) (a : Arena) (f : Filing) (row : Fact × List Step) : Prop where
  constant : f.literal.isConstant a = true
  shown : f.literal.shown a = row.1
  key : f.key = row.1.literal.key .empty
  actions : List.Forall₂ (b.IsStep a) f.actions row.2

theorem Files.mono (hb : b.KeepsActions b') {f : Filing} {row : Fact × List Step}
    (h : b.Files a f row) : b'.Files a f row :=
  ⟨h.constant, h.shown, h.key, h.actions.imp fun _ _ => IsStep.mono hb⟩

theorem key_eq_literal_key (hb : b.Keeps a) {l : Literal} (hl : l.isConstant a = true) :
    l.key b.arena = (l.shown a).literal.key .empty := by
  rw [Literal.key_of_isConstant hb hl, Fact.key_literal]
  rfl

/-- A filing is found by the literals that say its fact. -/
theorem Files.meets_eq (hb : b.Keeps a) {f : Filing} {row : Fact × List Step} (h : b.Files a f row)
    {l : Literal} (hl : l.isConstant a = true) :
    b.meets f l (l.key b.arena) = (row.1 == l.shown a) := by
  rw [meets, h.key, key_eq_literal_key hb hl, Bool.eq_iff_iff, Bool.and_eq_true, beq_iff_eq,
    beq_iff_eq, Literal.same_iff_shown hb h.constant hl, h.shown, Fact.key_injective.eq_iff,
    and_self_iff]

/-- **Filing an action files the step.** -/
theorem forall₂_files_fileUnder (hb : b.Keeps a) {x : Actor} {t : Step} (hx : b.Enacts a x t)
    {l : Literal} (hl : l.isConstant a = true) {filings : List Filing} {index : Index Fact Step}
    (h : List.Forall₂ (b.Files a) filings index) :
    List.Forall₂ (b.Files a) (b.fileUnder l (l.key b.arena) x filings)
      (index.file (l.shown a) t) := by
  have hhandle := hx.isStep
  induction h with
  | nil => exact .cons ⟨hl, rfl, key_eq_literal_key hb hl, .cons hhandle .nil⟩ .nil
  | @cons f row filings index hf hrest ih =>
    have hknown := Index.contains_eq_of_forall₂ (matches_enacts b a) (forall₂_actors hf.actions) hx
    rw [fileUnder, Index.file, hf.meets_eq hb hl]
    split
    · refine .cons ⟨hf.constant, hf.shown, hf.key, ?_⟩ hrest
      rw [hknown]
      split
      · exact hf.actions
      · exact List.rel_append hf.actions (.cons hhandle .nil)
    · exact .cons hf ih

theorem forall₂_files_fileAll (hb : b.Keeps a) {x : Actor} {t : Step} (hx : b.Enacts a x t) :
    ∀ {ls : List Literal}, (∀ l ∈ ls, l.isConstant a = true) → ∀ {filings : List Filing}
      {index : Index Fact Step}, List.Forall₂ (b.Files a) filings index →
      List.Forall₂ (b.Files a) (b.fileAll x ls filings)
        (index.fileUnder (ls.map (·.shown a)) t) := by
  intro ls
  induction ls with
  | nil => exact fun _ _ _ h => h
  | cons l ls ih =>
    intro hls filings index h
    exact ih (fun m hm => hls m (List.mem_cons_of_mem l hm))
      (forall₂_files_fileUnder hb hx (hls l List.mem_cons_self) h)

end Workbench

namespace Bench

variable {b : Workbench} {a : Arena}

/-- Filing an action under constant literals files the step. -/
theorem gives_fileIn_files (hb : b.Keeps a) {handle into : Handle} {x : Action} {t : Step}
    (hx : b.items[handle]? = some (.action x)) (hmeans : x.Says a t) {ls : List Literal}
    (hls : ∀ l ∈ ls, l.isConstant a = true) {f : FileItem}
    (hinto : b.items[into]? = some (.file f)) {index : Index Fact Step}
    (hf : List.Forall₂ (b.Files a) f.filings index) :
    ∃ b', Gives (fileIn into handle ls) b () b' ∧ b'.arena = b.arena ∧ b.Leaves b' [into] ∧
      ∃ g, b'.items[into]? = some (.file g) ∧ g.instances = f.instances ∧
        List.Forall₂ (b'.Files a) g.filings (index.fileUnder (ls.map (·.shown a)) t) := by
  have henacts : b.Enacts a ⟨handle, x⟩ t := ⟨Workbench.actor?_of_action hx, hmeans⟩
  have hkeeps := (b.leaves_set into (.file ⟨b.fileAll ⟨handle, x⟩ ls f.filings,
    f.instances⟩)).keepsActions (by simp [hinto])
  exact ⟨_, (gives_action hx).bind ((gives_file hinto).bind (gives_get.bind (gives_put _ _))), rfl,
    b.leaves_set into _, _, Workbench.getElem?_set_self hinto _, rfl,
    (Workbench.forall₂_files_fileAll hb henacts hls hf).imp fun _ _ => Workbench.Files.mono hkeeps⟩

/-- **Registering an action** files the step under what it deletes and adds. -/
theorem gives_register_files (hb : b.Keeps a) {handle into : Handle} {t : Step}
    (ht : b.IsStep a handle t) {f : FileItem} (hinto : b.items[into]? = some (.file f))
    {index : Index Fact Step} (hf : List.Forall₂ (b.Files a) f.filings index) :
    ∃ b', Gives (register handle into) b () b' ∧ b'.arena = b.arena ∧ b.Leaves b' [into] ∧
      ∃ g, b'.items[into]? = some (.file g) ∧ g.instances = f.instances ∧
        List.Forall₂ (b'.Files a) g.filings (index.fileEffects t) := by
  obtain ⟨x, hx, hmeans⟩ := ht
  have hconstant : ∀ l ∈ x.negative.members ++ x.positive.members, l.isConstant a = true :=
    fun l hl => hmeans.constant l (Action.mem_literals.2 (.inr (List.mem_append.1 hl)))
  obtain ⟨b', hgives, hrest⟩ := gives_fileIn_files hb hx hmeans hconstant hinto hf
  rw [List.map_append, hmeans.deleted, hmeans.added, ← Index.fileUnder_append] at hrest
  exact ⟨b', (gives_action hx).bind hgives, hrest⟩

/-- Registering several actions, one after the other. -/
theorem gives_forM_register_files {into : Handle} : ∀ {handles : List Handle} {steps : List Step}
    {b : Workbench}, b.Keeps a → List.Forall₂ (b.IsStep a) handles steps → ∀ {f : FileItem},
      b.items[into]? = some (.file f) → ∀ {index : Index Fact Step},
      List.Forall₂ (b.Files a) f.filings index →
      ∃ b', Gives (handles.forM fun h => register h into) b () b' ∧ b'.arena = b.arena ∧
        b.Leaves b' [into] ∧ ∃ g, b'.items[into]? = some (.file g) ∧
          List.Forall₂ (b'.Files a) g.filings (steps.foldl Index.fileEffects index) := by
  intro handles
  induction handles with
  | nil =>
    intro steps b _ hsteps f hinto index hf
    cases hsteps
    exact ⟨b, gives_pure (), rfl, .refl b _, f, hinto, hf⟩
  | cons h handles ih =>
    intro steps b hb hsteps f hinto index hf
    obtain ⟨t, steps, ht, hrest, rfl⟩ := List.forall₂_cons_left_iff.1 hsteps
    obtain ⟨b₁, hgives, harena, hleaves, g, hg, -, hfiles⟩ := gives_register_files hb ht hinto hf
    have hkeeps := hleaves.keepsActions (by simp [hinto])
    obtain ⟨b₂, hgives', harena', hleaves', hlast⟩ :=
      ih (hb.congr harena) (hrest.imp fun _ _ => Workbench.IsStep.mono hkeeps) hg hfiles
    exact ⟨b₂, gives_forM_cons hgives hgives', harena'.trans harena,
      (hleaves.trans hleaves').subset (by simp), hlast⟩

end Bench

end Strips
