import Strips.Problem

/-!
# Ground instances of a schema

An instance of a schema is what the schema says when constants are put in for its variables. This
module says so without a search: a substitution gives a constant to every cell, and the instance
under it is a step.

A `distinct` pair is respected when its two terms get different constants. A pair of two constants
of the text puts no condition on a substitution, so it is not asked for.

## Main definitions

* `Literal.under`, `Action.under` – the fact and the step under a substitution.
* `Schema.Admits` – the substitutions that give an instance.
* `Problem.IsInstance` – the steps that are instances of the schemas of a problem.
-/

namespace Strips

/-- The constant that a term stands for. -/
def Term.under (σ : Nat → String) : Term → String
  | const value => value
  | cell i => σ i

/-- The fact that a literal says under a substitution. -/
def Literal.under (σ : Nat → String) (l : Literal) : Fact := ⟨l.name, l.terms.map (Term.under σ)⟩

/-- The facts that a set of literals says under a substitution, each once. -/
def LiteralSet.under (σ : Nat → String) (s : LiteralSet) : List Fact :=
  (s.members.map (Literal.under σ)).eraseDups

@[simp] theorem LiteralSet.mem_under {σ : Nat → String} {s : LiteralSet} {f : Fact} :
    f ∈ s.under σ ↔ ∃ l ∈ s.members, l.under σ = f := by
  rw [LiteralSet.under, List.mem_eraseDups, List.mem_map]

namespace Action

/-- The step that an action is under a substitution. -/
def under (σ : Nat → String) (a : Action) : Step :=
  ⟨a.name, a.noop, a.parameters.map σ, a.preconditions.under σ, a.negative.under σ,
    a.positive.under σ⟩

/-- All literals of an action. -/
def literals (a : Action) : List Literal :=
  a.preconditions.members ++ a.negative.members ++ a.positive.members

theorem mem_literals {a : Action} {l : Literal} :
    l ∈ a.literals ↔
      l ∈ a.preconditions.members ∨ l ∈ a.negative.members ∨ l ∈ a.positive.members := by
  rw [literals, List.mem_append, List.mem_append, or_assoc]

end Action

/-- A substitution leaves the constants of a schema as they are and respects its distinct pairs. -/
structure Schema.Admits (s : Schema) (σ : Nat → String) : Prop where
  constants : ∀ i v, s.arena.isConstant i = true → s.arena.value? i = some v → σ i = v
  distinct : ∀ x y, (x, y) ∈ s.action.distinct →
    (x.isConstant s.arena && y.isConstant s.arena) = false → x.under σ ≠ y.under σ

/-- A step is an instance of some schema of the problem. -/
def Problem.IsInstance (p : Problem) (t : Step) : Prop :=
  ∃ s ∈ p.schemas, ∃ σ, s.Admits σ ∧ t = s.action.under σ

end Strips
