import Strips.Proofs.Reading
import Mathlib.Data.List.Pairwise

/-!
# Which instances there are over a layer

An instance of a schema over a fact layer is given by strings for the parameters of the schema. They
*fit* if every precondition becomes a fact of the layer, no distinct pair with a parameter gets one
value twice, and in strict mode no two preconditions become facts that exclude each other.

A variable of a distinct pair that stands in no literal is no parameter. It has no value, so it puts
no condition on the strings.

## Main definitions

* `Schema.valueUnder` – the value of a term when the parameters have got strings.
* `Schema.Fits` – the strings that give an instance over a layer.

## Main results

* `Schema.Built.mem_parameters`, `Schema.Built.nodup_preconditions` – what building an action sees
  to.
* `Schema.Built.mem_instances_iff` – the search finds the instances under strings that fit.
-/

namespace Strips

/-! ### Building sets -/

namespace LiteralSet

theorem contains_of_mem {a : Arena} {s : LiteralSet} {l : Literal} (hl : l ∈ s.members) :
    s.contains a l = true := by
  have hsame : l.same a l = true := beq_self_eq_true _
  rw [contains, find?, Option.isSome_or, Bool.or_eq_true, List.find?_isSome, List.find?_isSome]
  by_cases hc : l.isConstant a = true
  · exact .inl ⟨l, List.mem_filter.2 ⟨hl, hc⟩, hsame⟩
  · exact .inr ⟨l, List.mem_filter.2 ⟨hl, by simpa using hc⟩, hsame⟩

theorem nodup_insert {a : Arena} {s : LiteralSet} (h : s.members.Nodup) (l : Literal) :
    (s.insert a l).members.Nodup := by
  rw [insert]
  split
  · exact h
  · rename_i hnew
    have hl : l ∉ s.members := fun hl => hnew (contains_of_mem hl)
    exact List.nodup_append'.2 ⟨h, List.nodup_singleton l, fun m hm hml =>
      hl (List.mem_singleton.1 hml ▸ hm)⟩

end LiteralSet

theorem Action.nodup_addPreconditions : ∀ {ls : List Literal} {a : Action} {arena : Arena}
    {b : Action} {arena' : Arena}, a.preconditions.members.Nodup →
      a.addPreconditions arena ls = (.ok b, arena') → b.preconditions.members.Nodup
  | [], a, arena, b, arena', h, hrun => by
    rw [Action.addPreconditions] at hrun
    cases hrun
    exact h
  | l :: ls, a, arena, b, arena', h, hrun => by
    rw [Action.addPreconditions] at hrun
    split at hrun
    · split at hrun
      · rename_i x y _
        split at hrun
        · have hpair : { a with
              distinct := a.distinct ++ [(x, y)] }.preconditions.members.Nodup := h
          exact nodup_addPreconditions hpair hrun
        · cases hrun
      · cases hrun
    · have hinsert : { a with preconditions := a.preconditions.insert arena l
          }.preconditions.members.Nodup := LiteralSet.nodup_insert h l
      exact nodup_addPreconditions hinsert hrun

namespace Schema

namespace Built

variable {s : Schema} (h : s.Built)

include h

/-- The parameters are the variables of the literals. -/
theorem mem_parameters {i : Nat} : i ∈ s.action.parameters ↔
    ∃ l ∈ s.action.literals, .cell i ∈ l.terms ∧ s.arena.isConstant i = false := by
  obtain ⟨arena, name, pre, neg, pos, -, -, -, -, hbuild⟩ := h
  obtain ⟨a, -, -, haction⟩ := Action.exists_of_build hbuild
  rw [haction]
  exact Action.mem_collectParameters

/-- The preconditions are different literals. -/
theorem nodup_preconditions : s.action.preconditions.members.Nodup := by
  obtain ⟨arena, name, pre, neg, pos, -, -, -, -, hbuild⟩ := h
  obtain ⟨a, hadd, -, haction⟩ := Action.exists_of_build hbuild
  have hnodup := Action.nodup_addPreconditions List.nodup_nil hadd
  rwa [haction]

end Built

/-! ### Fitting strings -/

/-- The value of a term when the parameters have got strings. -/
def valueUnder (s : Schema) (σ : Nat → String) : Term → Option String
  | .const v => some v
  | .cell i =>
    if s.arena.isConstant i then s.arena.value? i
    else if i ∈ s.action.parameters then some (σ i) else none

/-- Whether a term is a parameter. -/
def IsParameter (s : Schema) (x : Term) : Prop := ∃ i ∈ s.action.parameters, x = .cell i

theorem isParameter_of_valueUnder {s : Schema} {σ : Nat → String} {i : Nat} {v : String}
    (hv : s.valueUnder σ (.cell i) = some v) (hi : ¬s.arena.isConstant i = true) :
    s.IsParameter (.cell i) := by
  rw [valueUnder, if_neg hi] at hv
  split at hv
  · exact ⟨i, ‹_›, rfl⟩
  · cases hv

/-- Strings for the parameters that give an instance over a layer; constants stand for
themselves. -/
structure Fits (s : Schema) (layer : FactLayer) (strict : Bool) (σ : Nat → String) : Prop where
  constants : ∀ i v, s.arena.isConstant i = true → s.arena.value? i = some v → σ i = v
  facts : ∀ l ∈ s.action.preconditions.members, l.under σ ∈ layer.facts
  distinct : ∀ x y, (x, y) ∈ s.action.distinct → s.IsParameter x ∨ s.IsParameter y →
    ∀ v, s.valueUnder σ x = some v → s.valueUnder σ y ≠ some v
  free : strict = true → ∀ l ∈ s.action.preconditions.members,
    ∀ m ∈ s.action.preconditions.members, l ≠ m → layer.isMutex (l.under σ) (m.under σ) = false

/-- Two substitutions with the same strings for the cells of the literals give the same step. -/
theorem Regular.under_congr {s : Schema} (h : s.Regular) {σ τ : Nat → String}
    (hστ : ∀ l ∈ s.action.literals, ∀ i, .cell i ∈ l.terms → σ i = τ i) :
    s.action.under σ = s.action.under τ ∧ ∀ l ∈ s.action.literals, l.under σ = l.under τ := by
  have hliteral : ∀ l ∈ s.action.literals, l.under σ = l.under τ := by
    intro l hl
    refine congrArg (Fact.mk l.name) (List.map_congr_left fun t ht => ?_)
    cases t with
    | const v => rfl
    | cell i => exact hστ l hl i ht
  have hset : ∀ ls : LiteralSet, (∀ l ∈ ls.members, l ∈ s.action.literals) →
      ls.under σ = ls.under τ := fun ls hls =>
    congrArg List.eraseDups (List.map_congr_left fun l hl => hliteral l (hls l hl))
  refine ⟨?_, hliteral⟩
  have hparameters : s.action.parameters.map σ = s.action.parameters.map τ :=
    List.map_congr_left fun i hi => by
      obtain ⟨l, hl, hil⟩ := h.parameters i hi
      exact hστ l hl i hil
  rw [Action.under, Action.under, hparameters,
    hset _ fun l hl => Action.mem_literals.2 (.inl hl),
    hset _ fun l hl => Action.mem_literals.2 (.inr (.inl hl)),
    hset _ fun l hl => Action.mem_literals.2 (.inr (.inr hl))]

namespace Built

variable {s : Schema} (h : s.Built) {layer : FactLayer} {strict : Bool}

include h

/-- What the search finds is an instance under strings that fit. -/
theorem exists_fits (hlayer : layer.mutexes.IsSymm) {t : Step}
    (ht : t ∈ s.instances layer strict) : ∃ σ, s.Fits layer strict σ ∧ t = s.action.under σ := by
  obtain ⟨σ, hσ, heq, hfacts, hfree, -⟩ := h.regular.exists_under ht
  refine ⟨σ, ⟨hσ.constants, hfacts, fun x y hxy hparameter v hx hy => ?_,
    fun hs l hl m hm hlm => ?_⟩, heq⟩
  · obtain ⟨i, j, rfl, rfl⟩ := h.regular.cells x y hxy
    -- a value under strings for the parameters is the one under the substitution
    have hvalue : ∀ {k : Nat} {w : String}, s.valueUnder σ (.cell k) = some w → σ k = w := by
      intro k w hk
      rw [valueUnder] at hk
      split at hk
      · rename_i hc
        exact hσ.constants k w hc hk
      · split at hk
        · exact Option.some.inj hk
        · cases hk
    have hvariable : ∀ {k : Nat}, s.IsParameter (.cell k) → s.arena.isConstant k = false := by
      rintro k ⟨_, hk, heq⟩
      obtain ⟨-, -, -, hc⟩ := h.mem_parameters.1 hk
      exact Term.cell.inj heq ▸ hc
    refine hσ.distinct _ _ hxy ?_ ((hvalue hx).trans (hvalue hy).symm)
    change (s.arena.isConstant i && s.arena.isConstant j) = false
    rcases hparameter with hi | hj
    · rw [hvariable hi, Bool.false_and]
    · rw [hvariable hj, Bool.and_false]
  · have : Std.Symm fun l m : Literal => layer.isMutex (m.under σ) (l.under σ) = false :=
      ⟨fun l m hlm => (hlayer _ _).trans hlm⟩
    exact (hlayer _ _).trans ((List.pairwise_map.1 (hfree hs)).forall hl hm hlm)

/-- **The instances that the search finds** are those under strings that fit. -/
theorem mem_instances_iff (hlayer : layer.mutexes.IsSymm) {t : Step} :
    t ∈ s.instances layer strict ↔ ∃ σ, s.Fits layer strict σ ∧ t = s.action.under σ := by
  refine ⟨h.exists_fits hlayer, ?_⟩
  rintro ⟨σ, hσ, rfl⟩
  -- the variables that are no parameters get values of their own
  have hproper : s.arena.Proper fun i => s.valueUnder σ (.cell i) := by
    intro i j v hij hi hj
    by_contra hconstant
    have hparameter : s.IsParameter (.cell i) ∨ s.IsParameter (.cell j) := by
      by_cases hci : s.arena.isConstant i = true
      · exact .inr (isParameter_of_valueUnder hj fun hcj => hconstant ⟨hci, hcj⟩)
      · exact .inl (isParameter_of_valueUnder hi hci)
    rcases (h.regular.mem_partners i j).1 hij with hpair | hpair
    · exact hσ.distinct _ _ hpair hparameter v hi hj
    · exact hσ.distinct _ _ hpair hparameter.symm v hj hi
  obtain ⟨τ, hτ, hseparates⟩ := h.regular.loose.exists_separates hproper
  have hconstants : ∀ i v, s.arena.isConstant i = true → s.arena.value? i = some v → τ i = v :=
    fun i v hc hv => hτ i v ((if_pos hc).trans hv)
  have hcells : ∀ l ∈ s.action.literals, ∀ i, .cell i ∈ l.terms → σ i = τ i := by
    intro l hl i hi
    by_cases hc : s.arena.isConstant i = true
    · obtain ⟨v, hv⟩ := Option.isSome_iff_exists.1 ((h.regular.isSome_value? i).trans hc)
      rw [hσ.constants i v hc hv, hconstants i v hc hv]
    · have hparameter := h.mem_parameters.2 ⟨l, hl, hi, Bool.eq_false_iff.2 hc⟩
      exact (hτ i _ ((if_neg hc).trans (if_pos hparameter))).symm
  obtain ⟨hstep, hliteral⟩ := h.regular.under_congr hcells
  have hfact : ∀ l ∈ s.action.preconditions.members, l.under τ = l.under σ := fun l hl =>
    (hliteral l (Action.mem_literals.2 (.inl hl))).symm
  rw [hstep]
  refine h.regular.mem_instances ⟨hconstants, h.regular.separates_iff.1 hseparates⟩
    (fun l hl => hfact l hl ▸ hσ.facts l hl) fun hs => List.pairwise_map.2 ?_
  refine h.nodup_preconditions.pairwise_of_forall_ne fun l hl m hm hlm => ?_
  rw [hfact l hl, hfact m hm]
  exact hσ.free hs m hm l hl hlm.symm

end Built

end Schema

end Strips
