import Strips.Action

/-!
# Ground actions

A step is an action without variables: facts that must hold, facts that it deletes and facts that it
adds. Two steps are the same when they have the same kind, name and arguments and their fact lists
have the same members; `==` means this, and not equality of the lists.

## Main definitions

* `Step`, `Step.noop` – a ground action, and the one that keeps a fact.
* `Action.step` – the step that a ground action is.
-/

namespace Strips

/-- A ground action. -/
structure Step where
  name : String
  /-- Whether the step keeps one fact and does nothing else. -/
  noop : Bool := false
  arguments : List String := []
  preconditions : List Fact := []
  deleted : List Fact := []
  added : List Fact := []
  deriving DecidableEq, Repr, Inhabited

namespace Step

/-- Whether two steps are the same action. -/
def same (s t : Step) : Bool :=
  s.noop == t.noop && s.name == t.name && s.arguments == t.arguments &&
    sameElements s.preconditions t.preconditions && sameElements s.deleted t.deleted &&
    sameElements s.added t.added

instance : BEq Step := ⟨same⟩

theorem beq_iff {s t : Step} :
    (s == t) = true ↔ s.noop = t.noop ∧ s.name = t.name ∧ s.arguments = t.arguments ∧
      (∀ f, f ∈ s.preconditions ↔ f ∈ t.preconditions) ∧ (∀ f, f ∈ s.deleted ↔ f ∈ t.deleted) ∧
      (∀ f, f ∈ s.added ↔ f ∈ t.added) := by
  change s.same t = true ↔ _
  simp only [same, Bool.and_eq_true, beq_iff_eq, sameElements_iff, and_assoc]

instance : EquivBEq Step where
  rfl := beq_iff.2 ⟨rfl, rfl, rfl, fun _ => .rfl, fun _ => .rfl, fun _ => .rfl⟩
  symm h := by
    obtain ⟨hk, hn, ha, hp, hd, he⟩ := beq_iff.1 h
    exact beq_iff.2 ⟨hk.symm, hn.symm, ha.symm, fun f => (hp f).symm, fun f => (hd f).symm,
      fun f => (he f).symm⟩
  trans h h' := by
    obtain ⟨hk, hn, ha, hp, hd, he⟩ := beq_iff.1 h
    obtain ⟨hk', hn', ha', hp', hd', he'⟩ := beq_iff.1 h'
    exact beq_iff.2 ⟨hk.trans hk', hn.trans hn', ha.trans ha', fun f => (hp f).trans (hp' f),
      fun f => (hd f).trans (hd' f), fun f => (he f).trans (he' f)⟩

/-- The printed form of a step. -/
def text (s : Step) : String :=
  if s.noop then s!"{noopName}({factsText s.preconditions})" else callText s.name s.arguments

/-- The statement that a step is: name, preconditions and effects, deleted facts first. -/
def describe (s : Step) : String :=
  let effects := (s.deleted.map fun f => s!"not {f.text}") ++ s.added.map Fact.text
  s!"{s.name} :: {factsText s.preconditions} => " ++ ",".intercalate effects

/-- The step that keeps a fact. A fact named `distinct` is read as a constraint in the precondition:
with two arguments it leaves the step without one, else it is refused. -/
def keep (f : Fact) : Except SchemaError Step :=
  let step : Step := ⟨noopName, true, f.arguments, [f], [], [f]⟩
  if f.name = distinctName then
    if f.arguments.length = 2 then .ok { step with preconditions := [] }
    else .error (.distinctArity noopName f.arguments.length)
  else .ok step

/-- The step as an instance over literals. -/
def toAction (s : Step) : Action :=
  let set := fun (facts : List Fact) => (⟨facts.map Fact.literal⟩ : LiteralSet)
  let action : Action :=
    { name := s.name, noop := s.noop, preconditions := set s.preconditions,
      negative := set s.deleted, positive := set s.added }
  action.freeze .empty (s.arguments.map some)

end Step

/-- The printed form of a list of actions, from those of its members. -/
def actionsText (texts : List String) : String := "[" ++ ", ".intercalate texts ++ "]"

namespace Action

/-- The step that an action is under the present values. What is unbound is shown as it is printed,
so this is meant for ground actions. -/
def shownStep (arena : Arena) (a : Action) : Step :=
  let facts := fun (s : LiteralSet) => (s.members.map (·.shown arena)).eraseDups
  ⟨a.name, a.noop, (a.arguments arena).map Term.valueText, facts a.preconditions,
    facts a.negative, facts a.positive⟩

/-- The step that an action is under the present values, if all its literals are ground. -/
def step? (arena : Arena) (a : Action) : Option Step :=
  if a.isGround arena then some (a.shownStep arena) else none

/-- The message about an action, printed, that has no step. -/
def notGroundMessage (text : String) : String := s!"Cannot ground action {text}: unbound parameters"

end Action

end Strips
