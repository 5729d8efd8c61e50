import Strips.Proofs.Matching
import Mathlib.Data.List.Basic

/-!
# Grounding by search

The instances of a schema over a fact layer are found by a search. Here the search is compared with
substitutions: it finds instances only, and it finds each instance whose preconditions are in the
layer and, in strict mode, do not exclude each other.

A search binds only the variables of the preconditions. A variable that stands in a `distinct`
constraint and nowhere else stays unbound, and a substitution has to find a constant for it. There
always is one, because there are more constants than cells; see `Arena.Loose.exists_separates`.

## Main definitions

* `Schema.Regular` – what the search relies on, and what every schema of a problem text has.

## Main results

* `Schema.Regular.exists_under` – what is found is an instance.
* `Schema.Regular.mem_instances` – every instance over the layer is found.
-/

namespace Strips

namespace Arena

variable {a : Arena}

theorem Loose.clear_eq (h : a.Loose) {i : Nat} (hi : a.isConstant i = false → a.value? i = none) :
    a.clear i = a := by
  conv_lhs => rw [← h.withValues_value?, h.clear_withValues]
  by_cases hc : a.isConstant i = true
  · rw [if_pos hc, h.withValues_value?]
  · have hv := hi (Bool.eq_false_iff.2 hc)
    rw [if_neg hc, ← hv, Function.update_eq_self, h.withValues_value?]

/-- Values that are longer than a bound, of another length for each cell. -/
def freshValue (bound i : Nat) : String := String.ofList (List.replicate (bound + 1 + i) 'x')

theorem length_freshValue (bound i : Nat) : (freshValue bound i).length = bound + 1 + i := by
  rw [freshValue, String.length_ofList, List.length_replicate]

theorem exists_length_le (ρ : Nat → Option String) (n : Nat) :
    ∃ bound, ∀ i < n, ∀ v, ρ i = some v → v.length ≤ bound := by
  induction n with
  | zero => exact ⟨0, fun i hi => absurd hi (Nat.not_lt_zero i)⟩
  | succ n ih =>
    obtain ⟨bound, hbound⟩ := ih
    refine ⟨max bound ((ρ n).elim 0 String.length), fun i hi v hv => ?_⟩
    rcases Nat.lt_succ_iff_lt_or_eq.1 hi with hlt | rfl
    · exact Nat.le_trans (hbound i hlt v hv) (Nat.le_max_left ..)
    · rw [hv]
      exact Nat.le_max_right ..

/-- Cells without a value can be given values that respect all marks. -/
theorem Loose.exists_separates (h : a.Loose) {ρ : Nat → Option String} (hp : a.Proper ρ) :
    ∃ σ, Agrees ρ σ ∧ a.Separates σ := by
  obtain ⟨bound, hbound⟩ := exists_length_le ρ a.size
  refine ⟨fun i => (ρ i).getD (freshValue bound i), fun i v hv => by simp [hv],
    fun i j hj hc => ?_⟩
  have hi := h.lt_of_mem_partners (h.marks_symm i j hj)
  have hjlt := h.lt_of_mem_partners hj
  intro heq
  cases hri : ρ i with
  | some v =>
    cases hrj : ρ j with
    | some w =>
      simp only [hri, hrj, Option.getD_some] at heq
      obtain ⟨hci, hcj⟩ := hp i j v hj hri (heq ▸ hrj)
      rw [hci, hcj] at hc
      cases hc
    | none =>
      simp only [hri, hrj, Option.getD_some, Option.getD_none] at heq
      have hlen := hbound i hi v hri
      rw [heq, length_freshValue] at hlen
      omega
  | none =>
    cases hrj : ρ j with
    | some w =>
      simp only [hri, hrj, Option.getD_some, Option.getD_none] at heq
      have hlen := hbound j hjlt w hrj
      rw [← heq, length_freshValue] at hlen
      omega
    | none =>
      simp only [hri, hrj, Option.getD_none] at heq
      have hlen := congrArg String.length heq
      rw [length_freshValue, length_freshValue] at hlen
      obtain rfl : i = j := by omega
      exact h.marks_irrefl i hj

end Arena

/-! ### Regular schemas -/

/-- A schema as it is read from a problem text: its cells are not linked, exactly the constants have
values, its marks are its distinct pairs, and every variable of it is bound by a precondition. -/
structure Schema.Regular (s : Schema) : Prop where
  loose : s.arena.Loose
  isSome_value? : ∀ i, (s.arena.value? i).isSome = s.arena.isConstant i
  holds : ∀ l ∈ s.action.literals, s.arena.Holds l.terms
  mem_partners : ∀ i j, j ∈ s.arena.partners i ↔
    (.cell i, .cell j) ∈ s.action.distinct ∨ (.cell j, .cell i) ∈ s.action.distinct
  /-- A distinct pair consists of cells. -/
  cells : ∀ x y, (x, y) ∈ s.action.distinct → ∃ i j, x = .cell i ∧ y = .cell j
  /-- A variable of an effect is one of a precondition. -/
  bound : ∀ l ∈ s.action.literals, ∀ i, .cell i ∈ l.terms → s.arena.isConstant i = false →
    ∃ m ∈ s.action.preconditions.members, .cell i ∈ m.terms
  parameters : ∀ i ∈ s.action.parameters, ∃ l ∈ s.action.literals, .cell i ∈ l.terms
  noop : s.action.noop = false
  key : s.action.key = none

namespace Schema.Regular

variable {s : Schema} (h : s.Regular)

include h

theorem value?_eq_none {i : Nat} (hi : s.arena.isConstant i = false) : s.arena.value? i = none := by
  rw [← Option.not_isSome_iff_eq_none, h.isSome_value?, hi]
  exact Bool.false_ne_true

theorem clear_literals (ls : LiteralSet) : ls.clear s.arena = s.arena := by
  have hterm : ∀ t : Term, t.clear s.arena = s.arena := fun t => by
    cases t with
    | const v => rfl
    | cell i => exact h.loose.clear_eq h.value?_eq_none
  exact List.foldl_fixed' (fun l => List.foldl_fixed' hterm l.terms) ls.members

/-- Nothing is bound, so there is nothing to clear. -/
theorem clear_eq : s.clear = s := by
  rw [Schema.clear, Action.clear, h.clear_literals, h.clear_literals, h.clear_literals]

theorem instances_eq (layer : FactLayer) (strict : Bool) :
    s.instances layer strict =
      (assignments layer strict s.action.preconditions.members []
        (s.arena.withValues s.arena.value?)).filterMap fun arena => s.action.step? arena := by
  rw [instances, h.clear_eq, h.loose.withValues_value?]

theorem holds_precondition {l : Literal} (hl : l ∈ s.action.preconditions.members) :
    s.arena.Holds l.terms :=
  h.holds l (Action.mem_literals.2 (.inl hl))

/-! ### The step under an assignment -/

section StepUnder

variable {ρ : Nat → Option String} {σ : Nat → String} (hρ : Arena.Agrees ρ σ)
  (hb : ∀ l ∈ s.action.literals, ∀ t ∈ l.terms, (t.at ρ).isSome = true)

include hρ hb

theorem value?_term_withValues : ∀ l ∈ s.action.literals, ∀ t ∈ l.terms,
    t.value? (s.arena.withValues ρ) = some (t.under σ) := by
  intro l hl t ht
  rw [h.loose.value?_term ρ fun i hi => h.holds l hl i (List.mem_singleton.1 hi ▸ ht)]
  obtain ⟨v, hv⟩ := Option.isSome_iff_exists.1 (hb l hl t ht)
  cases t with
  | const w => rfl
  | cell i =>
    rw [hv, ← hρ i v hv]
    rfl

/-- Under an assignment that binds all literals, the step is the one under any substitution that
agrees with it. -/
theorem step?_withValues :
    s.action.step? (s.arena.withValues ρ) = some (s.action.under σ) := by
  have hterm := h.value?_term_withValues hρ hb
  have hground : ∀ ls : LiteralSet, (∀ l ∈ ls.members, l ∈ s.action.literals) →
      ls.isGround (s.arena.withValues ρ) = true := by
    intro ls hls
    refine List.all_eq_true.2 fun l hl => List.all_eq_true.2 fun t ht => ?_
    rw [hterm l (hls l hl) t ht]
    rfl
  have hshown : ∀ ls : LiteralSet, (∀ l ∈ ls.members, l ∈ s.action.literals) →
      (ls.members.map (·.shown (s.arena.withValues ρ))).eraseDups = ls.under σ := by
    intro ls hls
    refine congrArg List.eraseDups (List.map_congr_left fun l hl => ?_)
    rw [Literal.shown, Literal.values, List.map_map, Literal.under]
    refine congrArg (Fact.mk l.name) (List.map_congr_left fun t ht => ?_)
    rw [Function.comp_apply, hterm l (hls l hl) t ht]
    rfl
  have hpre : ∀ l ∈ s.action.preconditions.members, l ∈ s.action.literals :=
    fun l hl => Action.mem_literals.2 (.inl hl)
  have hneg : ∀ l ∈ s.action.negative.members, l ∈ s.action.literals :=
    fun l hl => Action.mem_literals.2 (.inr (.inl hl))
  have hpos : ∀ l ∈ s.action.positive.members, l ∈ s.action.literals :=
    fun l hl => Action.mem_literals.2 (.inr (.inr hl))
  have hargs : (s.action.arguments (s.arena.withValues ρ)).map Term.valueText =
      s.action.parameters.map σ := by
    rw [Action.arguments, h.key, List.map_map]
    refine List.map_congr_left fun i hi => ?_
    obtain ⟨l, hl, hil⟩ := h.parameters i hi
    have hi' : (s.arena.withValues ρ).value? i = some (σ i) := hterm l hl (.cell i) hil
    rw [Function.comp_apply, hi']
    rfl
  rw [Action.step?, Action.isGround, hground _ hpre, hground _ hneg, hground _ hpos,
    Action.shownStep, hargs]
  simp only [hshown _ hpre, hshown _ hneg, hshown _ hpos]
  rfl

end StepUnder

end Schema.Regular

/-- A literal that says a fact under an assignment becomes it under a substitution that agrees. -/
theorem Literal.Says.under_eq {ρ : Nat → Option String} {σ : Nat → String} {l : Literal} {f : Fact}
    (h : l.Says ρ f) (hρ : Arena.Agrees ρ σ) : l.under σ = f := by
  have hargs : l.terms.map (Term.under σ) = f.arguments := by
    refine List.map_injective_iff.2 (fun _ _ => Option.some.inj) ?_
    rw [List.map_map, ← h.terms]
    refine List.map_congr_left fun t ht => ?_
    obtain ⟨v, -, hv⟩ := List.mem_map.1 (h.terms ▸ List.mem_map_of_mem ht)
    cases t with
    | const w => rfl
    | cell i => rw [← hv, Function.comp_apply, Term.under, hρ i v hv.symm]
  rw [Literal.under, hargs, h.name]

theorem Literal.Says.isSome_at {ρ : Nat → Option String} {l : Literal} {f : Fact} (h : l.Says ρ f)
    {t : Term} (ht : t ∈ l.terms) : (t.at ρ).isSome = true := by
  obtain ⟨v, -, hv⟩ := List.mem_map.1 (h.terms ▸ List.mem_map_of_mem ht)
  rw [← hv]
  rfl

theorem Literal.map_under_of_says {ρ : Nat → Option String} {σ : Nat → String}
    (hρ : Arena.Agrees ρ σ) {ls : List Literal} {fs : List Fact}
    (h : List.Forall₂ (Literal.Says ρ) ls fs) :
    ls.map (Literal.under σ) = fs ∧ ∀ l ∈ ls, l.Says ρ (l.under σ) := by
  induction h with
  | nil => exact ⟨rfl, fun l hl => absurd hl List.not_mem_nil⟩
  | cons hlf _ ih =>
    have heq := hlf.under_eq hρ
    exact ⟨List.cons_eq_cons.2 ⟨heq, ih.1⟩, List.forall_mem_cons.2 ⟨heq ▸ hlf, ih.2⟩⟩

namespace Schema.Regular

variable {s : Schema} (h : s.Regular) {layer : FactLayer} {strict : Bool}

include h

/-- At the start the constants are bound, and nothing else. -/
theorem proper_value? : s.arena.Proper s.arena.value? := by
  intro i j v _ hi hj
  rw [← h.isSome_value?, ← h.isSome_value?, hi, hj]
  exact ⟨rfl, rfl⟩

theorem bindsConstants_value? : s.arena.BindsConstants s.arena.value? := by
  intro i hi
  rw [h.isSome_value?, hi]

/-- All literals are bound when the preconditions are. -/
theorem isSome_at_of_preconditions {ρ : Nat → Option String} (hc : s.arena.BindsConstants ρ)
    (hpre : ∀ l ∈ s.action.preconditions.members, ∀ t ∈ l.terms, (t.at ρ).isSome = true) :
    ∀ l ∈ s.action.literals, ∀ t ∈ l.terms, (t.at ρ).isSome = true := by
  intro l hl t ht
  cases t with
  | const v => rfl
  | cell i =>
    by_cases hi : s.arena.isConstant i = true
    · exact hc i hi
    · obtain ⟨m, hm, him⟩ := h.bound l hl i ht (Bool.eq_false_iff.2 hi)
      exact hpre m hm _ him

theorem separates_iff {σ : Nat → String} :
    s.arena.Separates σ ↔ ∀ x y, (x, y) ∈ s.action.distinct →
      (x.isConstant s.arena && y.isConstant s.arena) = false → x.under σ ≠ y.under σ := by
  constructor
  · intro hσ x y hxy hc
    obtain ⟨i, j, rfl, rfl⟩ := h.cells x y hxy
    exact hσ i j ((h.mem_partners i j).2 (.inl hxy)) hc
  · intro hσ i j hj hc
    rcases (h.mem_partners i j).1 hj with hij | hji
    · exact hσ _ _ hij hc
    · exact (hσ _ _ hji (by rw [Bool.and_comm]; exact hc)).symm

/-- **What the search finds is an instance.** Its preconditions are facts of the layer, none of them
excludes another one in strict mode, and each constant of it is one of the schema or stands in a
fact of the layer. -/
theorem exists_under {t : Step} (ht : t ∈ s.instances layer strict) :
    ∃ σ, s.Admits σ ∧ t = s.action.under σ ∧
      (∀ l ∈ s.action.preconditions.members, l.under σ ∈ layer.facts) ∧
      (strict = true →
        Arena.Free layer (s.action.preconditions.members.map (Literal.under σ))) ∧
      ∀ l ∈ s.action.literals, ∀ i, .cell i ∈ l.terms → s.arena.isConstant i = false →
        σ i ∈ layer.facts.flatMap Fact.arguments := by
  rw [h.instances_eq, List.mem_filterMap] at ht
  obtain ⟨b, hb, hstep⟩ := ht
  obtain ⟨ρ, fs, rfl, hg, hsaid, hfs, hfree⟩ :=
    h.loose.assignments_sound (fun l hl => h.holds_precondition hl) hb
  obtain ⟨σ, hρσ, hσ⟩ := h.loose.exists_separates (hg.proper h.proper_value?)
  obtain ⟨hunder, hpre⟩ := Literal.map_under_of_says hρσ hsaid
  have hbound := h.isSome_at_of_preconditions (hg.bindsConstants h.bindsConstants_value?)
    fun l hl t ht => (hpre l hl).isSome_at ht
  rw [h.step?_withValues hρσ hbound] at hstep
  refine ⟨σ, ⟨fun i v _ hv => hρσ i v (hg.keeps i v hv), h.separates_iff.1 hσ⟩,
    (Option.some.inj hstep).symm, fun l hl => ?_, fun hs => ?_, fun l hl i hi hc => ?_⟩
  · exact hfs _ (hunder ▸ List.mem_map_of_mem hl)
  · rw [hunder]
    exact hfree hs .nil
  · obtain ⟨v, hv⟩ := Option.isSome_iff_exists.1 (hbound l hl _ hi)
    rw [hρσ i v hv]
    rcases hg.source i v hv with hv | hv
    · rw [h.value?_eq_none hc] at hv
      cases hv
    · exact hv

/-- **Every instance over the layer is found.** -/
theorem mem_instances {σ : Nat → String} (hσ : s.Admits σ)
    (hpre : ∀ l ∈ s.action.preconditions.members, l.under σ ∈ layer.facts)
    (hfree : strict = true →
      Arena.Free layer (s.action.preconditions.members.map (Literal.under σ))) :
    s.action.under σ ∈ s.instances layer strict := by
  have hvalue : Arena.Agrees s.arena.value? σ := by
    intro i v hv
    have hi : s.arena.isConstant i = true := by rw [← h.isSome_value?, hv]; rfl
    exact hσ.constants i v hi hv
  have hchosen : strict = true →
      Arena.Free layer ([] ++ s.action.preconditions.members.map (Literal.under σ)) := hfree
  obtain ⟨ρ, hmem, hρ, hg, hsaid⟩ :=
    h.loose.assignments_complete (h.separates_iff.2 hσ.distinct)
      (fun l hl => h.holds_precondition hl) hpre hchosen hvalue h.bindsConstants_value?
  rw [h.instances_eq, List.mem_filterMap]
  refine ⟨_, hmem, h.step?_withValues hρ ?_⟩
  exact h.isSome_at_of_preconditions (hg.bindsConstants h.bindsConstants_value?)
    fun l hl t ht => (hsaid l hl).isSome_at ht

end Schema.Regular

theorem Problem.isInstance_of_mem_instances {p : Problem} (hreg : ∀ s ∈ p.schemas, s.Regular)
    {layer : FactLayer} {strict : Bool} {s : Schema} (hs : s ∈ p.schemas) {t : Step}
    (ht : t ∈ s.instances layer strict) : p.IsInstance t := by
  obtain ⟨σ, hσ, heq, -⟩ := (hreg s hs).exists_under ht
  exact ⟨s, hs, σ, hσ, heq⟩

theorem Schema.find?_isInstance {schemas : List Schema} (hreg : ∀ s ∈ schemas, s.Regular) :
    schemas.find? isInstance = none := by
  refine List.find?_eq_none.2 fun s hs => ?_
  rw [isInstance, Action.isInstance, (hreg s hs).key]
  exact Bool.false_ne_true

end Strips
