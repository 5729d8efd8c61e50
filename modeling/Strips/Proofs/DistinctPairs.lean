import Strips.Proofs.Reading

/-!
# Distinct pairs of instances

A `distinct` pair of a schema is not checked on finished instances. It is a mark on two cells, and a
binding is refused if a marked cell has the value already. So a pair with a variable is respected by
every instance. A pair of two constants is never bound at all: `distinct(a, a)` is accepted by the
reader, since the two occurrences of `a` are two cells, and then every instance of the schema
violates it.

## Main definitions

* `Schema.valueIn` – the value of a term in an instance.
* `Schema.Violates` – an instance gives one value to both terms of a pair.
* `Schema.ConstantPair` – a pair of two constants with one value.

## Main results

* `Schema.Regular.violates_iff` – the violated pairs of an instance.
* `Problem.exists_violates_iff` – a pair is violated by some instance over some layer exactly if it
  is a pair of two constants with one value.
-/

namespace Strips

namespace Schema

/-- The value of a term in an instance of a schema: a constant has its own, and a parameter the
argument in its place. -/
def valueIn (s : Schema) (t : Step) : Term → Option String
  | .const v => some v
  | .cell i =>
    if s.arena.isConstant i then s.arena.value? i
    else (s.action.parameters.zip t.arguments).lookup i

/-- Both terms of a pair have the same value in an instance. -/
def Violates (s : Schema) (t : Step) (pair : Term × Term) : Prop :=
  ∃ v, s.valueIn t pair.1 = some v ∧ s.valueIn t pair.2 = some v

/-- Both terms of a pair are constants, and have the same value. -/
def ConstantPair (s : Schema) (pair : Term × Term) : Prop :=
  (pair.1.isConstant s.arena && pair.2.isConstant s.arena) = true ∧
    ∃ v, pair.1.value? s.arena = some v ∧ pair.2.value? s.arena = some v

theorem valueIn_of_isConstant {s : Schema} {x : Term} (hx : x.isConstant s.arena = true)
    (t : Step) : s.valueIn t x = x.value? s.arena := by
  cases x with
  | const v => rfl
  | cell i => exact if_pos hx

theorem lookup_zip_map {σ : Nat → String} {i : Nat} {v : String} : ∀ {is : List Nat},
    (is.zip (is.map σ)).lookup i = some v → v = σ i
  | [], h => by cases h
  | j :: is, h => by
    rw [List.map_cons, List.zip_cons_cons, List.lookup_cons] at h
    by_cases hij : i = j
    · subst hij
      simpa using h.symm
    · rw [beq_false_of_ne hij] at h
      exact lookup_zip_map h

namespace Regular

variable {s : Schema} (h : s.Regular)

include h

omit h in
/-- The values in the instance under a substitution are those that it gives. -/
theorem eq_of_valueIn_under {σ : Nat → String} (hσ : s.Admits σ) {x : Term} {v : String}
    (hx : s.valueIn (s.action.under σ) x = some v) : v = x.under σ := by
  cases x with
  | const w => exact (Option.some.inj hx).symm
  | cell i =>
    rw [valueIn] at hx
    split at hx
    · rename_i hi
      exact (hσ.constants i v hi hx).symm
    · exact lookup_zip_map hx

/-- **The violated pairs** of an instance are the pairs of two constants with one value. -/
theorem violates_iff {layer : FactLayer} {strict : Bool} {t : Step}
    (ht : t ∈ s.instances layer strict) {pair : Term × Term} (hpair : pair ∈ s.action.distinct) :
    s.Violates t pair ↔ s.ConstantPair pair := by
  constructor
  · rintro ⟨v, hx, hy⟩
    obtain ⟨σ, hσ, rfl, -⟩ := h.exists_under ht
    by_cases hconstant : (pair.1.isConstant s.arena && pair.2.isConstant s.arena) = true
    · have hboth := (Bool.and_eq_true _ _).mp hconstant
      rw [valueIn_of_isConstant hboth.1] at hx
      rw [valueIn_of_isConstant hboth.2] at hy
      exact ⟨hconstant, v, hx, hy⟩
    · -- a pair with a variable is one that a substitution respects
      have hne := hσ.distinct pair.1 pair.2 hpair (Bool.eq_false_iff.2 hconstant)
      rw [← eq_of_valueIn_under hσ hx, ← eq_of_valueIn_under hσ hy] at hne
      exact absurd rfl hne
  · rintro ⟨hconstant, v, hx, hy⟩
    have hboth := (Bool.and_eq_true _ _).mp hconstant
    exact ⟨v, (valueIn_of_isConstant hboth.1 t).trans hx,
      (valueIn_of_isConstant hboth.2 t).trans hy⟩

/-- Every schema has an instance over some layer: one can be made of its own preconditions. -/
theorem exists_mem_instances (strict : Bool) : ∃ layer t, t ∈ s.instances layer strict := by
  obtain ⟨σ, hvalue, hσ⟩ := h.loose.exists_separates h.proper_value?
  have hadmits : s.Admits σ := ⟨fun i v _ hv => hvalue i v hv, h.separates_iff.1 hσ⟩
  refine ⟨⟨s.action.preconditions.under σ, {}⟩, _, h.mem_instances hadmits (fun l hl => ?_)
    fun _ => ?_⟩
  · exact LiteralSet.mem_under.2 ⟨l, hl, rfl⟩
  · exact List.pairwise_of_forall fun _ _ => rfl

end Regular

end Schema

/-- **Distinct pairs of a problem text.** In either mode, a pair of a schema is violated by some
instance over some fact layer exactly if it is a pair of two constants with one value. -/
theorem Problem.exists_violates_iff {text : String} {p : Problem} (hp : parse text = .ok p)
    {s : Schema} (hs : s ∈ p.schemas) {pair : Term × Term} (hpair : pair ∈ s.action.distinct)
    (strict : Bool) :
    (∃ layer, ∃ t ∈ s.instances layer strict, s.Violates t pair) ↔ s.ConstantPair pair := by
  have hreg := regular_of_parse hp s hs
  constructor
  · rintro ⟨layer, t, ht, hviolates⟩
    exact (hreg.violates_iff ht hpair).1 hviolates
  · intro hconstant
    obtain ⟨layer, t, ht⟩ := hreg.exists_mem_instances strict
    exact ⟨layer, t, ht, (hreg.violates_iff ht hpair).2 hconstant⟩

/-- Going from one place to another one. -/
def goText : String := "go :: at(X), place(Y), distinct(X, Y) => not at(X), at(Y).
  at(a). goal at(b)."

/-- Nobody goes to where they are. -/
theorem Problem.not_violates_go : ∃ p s pair, parse goText = .ok p ∧ s ∈ p.schemas ∧
    pair ∈ s.action.distinct ∧ ∀ layer, ∀ t ∈ s.instances layer true, ¬s.Violates t pair := by
  have hread : (parse goText).toOption.any (fun p => p.schemas.any fun s =>
      s.action.distinct.any fun pair =>
        !(pair.1.isConstant s.arena && pair.2.isConstant s.arena)) = true := by
    decide +kernel
  cases hp : parse goText with
  | error e =>
    rw [hp] at hread
    cases hread
  | ok p =>
    rw [hp] at hread
    obtain ⟨s, hs, hread⟩ := List.any_eq_true.1 hread
    obtain ⟨pair, hpair, hread⟩ := List.any_eq_true.1 hread
    refine ⟨p, s, pair, rfl, hs, hpair, fun layer t ht hviolates => ?_⟩
    have hconstant := (exists_violates_iff hp hs hpair true).1 ⟨layer, t, ht, hviolates⟩
    rw [hconstant.1] at hread
    cases hread

/-- A constraint that cannot be met. -/
def unmetText : String := "a :: p, distinct(x, x) => q. p. goal q."

/-- There is an instance all the same. -/
theorem Problem.violates_unmet : ∃ p s layer t pair, parse unmetText = .ok p ∧ s ∈ p.schemas ∧
    t ∈ s.instances layer true ∧ t ∈ s.instances layer false ∧ pair ∈ s.action.distinct ∧
    s.Violates t pair := by
  have hread : (parse unmetText).toOption.any (fun p => p.schemas.any fun s =>
      s.instances ⟨p.initial, {}⟩ true = [⟨"a", false, [], [⟨"p", []⟩], [], [⟨"q", []⟩]⟩] ∧
      s.instances ⟨p.initial, {}⟩ false = [⟨"a", false, [], [⟨"p", []⟩], [], [⟨"q", []⟩]⟩] ∧
      s.action.distinct = [(.cell 0, .cell 1)] ∧
      s.valueIn ⟨"a", false, [], [⟨"p", []⟩], [], [⟨"q", []⟩]⟩ (.cell 0) = some "x" ∧
      s.valueIn ⟨"a", false, [], [⟨"p", []⟩], [], [⟨"q", []⟩]⟩ (.cell 1) = some "x") = true := by
    decide +kernel
  cases hp : parse unmetText with
  | error e =>
    rw [hp] at hread
    cases hread
  | ok p =>
    rw [hp] at hread
    obtain ⟨s, hs, hread⟩ := List.any_eq_true.1 hread
    obtain ⟨hstrict, hplain, hpair, hx, hy⟩ := of_decide_eq_true hread
    exact ⟨p, s, _, _, _, rfl, hs, hstrict ▸ List.mem_singleton_self _,
      hplain ▸ List.mem_singleton_self _, hpair ▸ List.mem_singleton_self _, "x", hx, hy⟩

end Strips
