import Strips.Literal.Set

/-!
# Actions over literals

An action has preconditions, negative effects and positive effects, each a set of literals. As a
*schema* its literals share cells, so that binding a cell through a precondition fixes it in the
effects. An action that was given arguments of its own is an *instance*; instances are compared by
value, through their `ActionKey`.

A precondition named `distinct` is no literal of the action. It marks its two arguments distinct,
and is kept as a pair.

## Main definitions

* `Action.build` – an action from its literals, with the checks of a schema.
* `Action.noop` – the action that keeps one fact.
* `Action.ground?`, `Action.clear` – an instance under the present values, and a fresh start.
-/

namespace Strips

/-- The name of inequality constraints among preconditions. -/
def distinctName : String := "distinct"

/-- The name of the actions that keep a fact. -/
def noopName : String := "no-op"

/-- Why an action cannot be built. -/
inductive SchemaError where
  /-- A constraint that does not have two arguments. -/
  | distinctArity (action : String) (arity : Nat)
  /-- A constraint whose arguments cannot be marked distinct. -/
  | distinctRefused (action : String) (cause : BindingError)
  /-- An effect, printed, with a variable that no precondition has. -/
  | freeEffect (action effect : String)
  deriving DecidableEq, Repr

/-- The message about an action that cannot be built. -/
def SchemaError.message : SchemaError → String
  | distinctArity action arity =>
    s!"Action '{action}': distinct expects 2 arguments, got {arity}"
  | distinctRefused action cause => s!"Action '{action}': {cause.message}"
  | freeEffect action effect =>
    s!"Action '{action}': effect {effect} uses a variable that no precondition binds"

/-- The value by which instances are compared; the order within a list does not count. -/
structure ActionKey where
  noop : Bool
  name : String
  arguments : List (Option String)
  preconditions : List ValueKey
  negative : List ValueKey
  positive : List ValueKey
  deriving DecidableEq, Repr

/-- Whether two lists have the same members. -/
def sameElements {α : Type} [BEq α] (xs ys : List α) : Bool :=
  xs.all ys.contains && ys.all xs.contains

/-- Having the same members does not depend on order or repetition. -/
theorem sameElements_iff {α : Type} [BEq α] [LawfulBEq α] {xs ys : List α} :
    sameElements xs ys = true ↔ ∀ x, x ∈ xs ↔ x ∈ ys := by
  simp only [sameElements, Bool.and_eq_true, List.all_eq_true, List.contains_iff_mem]
  exact ⟨fun h x => ⟨h.1 x, h.2 x⟩, fun h => ⟨fun x => (h x).1, fun x => (h x).2⟩⟩

/-- Whether two keys stand for the same instance. -/
def ActionKey.same (k l : ActionKey) : Bool :=
  k.noop == l.noop && k.name == l.name && k.arguments == l.arguments &&
    sameElements k.preconditions l.preconditions && sameElements k.negative l.negative &&
    sameElements k.positive l.positive

/-- An action over literals. -/
structure Action where
  name : String
  /-- Whether the action keeps one fact and does nothing else. -/
  noop : Bool := false
  preconditions : LiteralSet := {}
  negative : LiteralSet := {}
  positive : LiteralSet := {}
  /-- The pairs that must not get equal values. -/
  distinct : List (Term × Term) := []
  /-- The variables, in the order of their first appearance. -/
  parameters : List Nat := []
  /-- The key of an instance; a schema has none. -/
  key : Option ActionKey := none
  deriving DecidableEq, Repr

namespace Action

/-- Whether the action is an instance. -/
def isInstance (a : Action) : Bool := a.key.isSome

/-- The arguments: fixed for an instance, the present values of the parameters for a schema. -/
def arguments (arena : Arena) (a : Action) : List (Option String) :=
  match a.key with
  | some key => key.arguments
  | none => a.parameters.map arena.value?

/-- Whether all literals are ground. -/
def isGround (arena : Arena) (a : Action) : Bool :=
  a.preconditions.isGround arena && a.negative.isGround arena && a.positive.isGround arena

/-- The printed form of an action. -/
def text (arena : Arena) (a : Action) : String :=
  if a.noop then s!"{noopName}({a.preconditions.text arena})"
  else callText a.name ((a.arguments arena).map Term.valueText)

/-- The statement that an action is: name, preconditions and effects, deleted facts first. -/
def describe (arena : Arena) (a : Action) : String :=
  let effects := (a.negative.members.map fun l => s!"not {l.text arena}") ++
    a.positive.members.map (·.text arena)
  s!"{a.name} :: {a.preconditions.text arena} => " ++ ",".intercalate effects

/-- Whether two actions are the same: by key for instances. Schemas are the same only as the very
same object, which is for their owner to know. -/
def sameInstance (a b : Action) : Bool :=
  match a.key, b.key with
  | some k, some l => k.same l
  | _, _ => false

/-- The action in an arena in which its cells come after `offset` others. -/
def shift (offset : Nat) (a : Action) : Action :=
  let move := fun (s : LiteralSet) => (⟨s.members.map (Literal.shift offset)⟩ : LiteralSet)
  { a with
    preconditions := move a.preconditions
    negative := move a.negative
    positive := move a.positive
    distinct := a.distinct.map fun (s, t) => (s.shift offset, t.shift offset)
    parameters := a.parameters.map (· + offset) }

/-! ### Building -/

/-- Mark the two arguments of a constraint distinct. Two constants of a ground literal are two
occurrences, so nothing is recorded for them. -/
def markPair (arena : Arena) : Term → Term → Except BindingError Arena
  | .cell i, .cell j => arena.markDistinct i j
  | _, _ => .ok arena

/-- Take the preconditions one by one: constraints become pairs, other literals are kept. -/
def addPreconditions (a : Action) (arena : Arena) :
    List Literal → Except SchemaError Action × Arena
  | [] => (.ok a, arena)
  | l :: rest =>
    if l.name = distinctName then
      match l.terms with
      | [s, t] =>
        match markPair arena s t with
        | .ok arena => { a with distinct := a.distinct ++ [(s, t)] }.addPreconditions arena rest
        | .error e => (.error (.distinctRefused a.name e), arena)
      | terms => (.error (.distinctArity a.name terms.length), arena)
    else { a with preconditions := a.preconditions.insert arena l }.addPreconditions arena rest

/-- The variables of an action in the order of their first appearance. -/
def collectParameters (arena : Arena) (a : Action) : List Nat :=
  (a.preconditions.freeCells arena ++ a.negative.freeCells arena ++
    a.positive.freeCells arena).eraseDups

/-- The first effect with a variable that no precondition has. -/
def freeEffect? (arena : Arena) (a : Action) : Option Literal :=
  let known := a.preconditions.freeCells arena
  (a.negative.members ++ a.positive.members).find? fun l =>
    (l.freeCells arena).any fun i => !known.contains i

/-- Build an action from its literals. Constraints are marked in the arena one after the other,
also when a later check fails. -/
def build (arena : Arena) (name : String) (preconditions negative positive : List Literal)
    (noop : Bool := false) : Except SchemaError Action × Arena :=
  let start : Action :=
    { name, noop, negative := .ofList arena negative, positive := .ofList arena positive }
  match start.addPreconditions arena preconditions with
  | (.error e, arena) => (.error e, arena)
  | (.ok a, arena) =>
    match a.freeEffect? arena with
    | some l => (.error (.freeEffect name (l.text arena)), arena)
    | none => (.ok { a with parameters := a.collectParameters arena }, arena)

/-- Make an action an instance with the given arguments, keyed by its present values. -/
def freeze (arena : Arena) (a : Action) (arguments : List (Option String)) : Action :=
  let keys := fun (s : LiteralSet) => s.members.map (·.key arena)
  { a with
    key := some ⟨a.noop, a.name, arguments, keys a.preconditions, keys a.negative,
      keys a.positive⟩ }

/-- The action that keeps a fact: its only precondition and its only effect. A fact named
`distinct` is read as a constraint there, and is refused unless it has two arguments. -/
def noopOf (arena : Arena) (l : Literal) : Except SchemaError Action × Arena :=
  match build arena noopName [l] [] [l] true with
  | (.ok a, arena) => (.ok (a.freeze arena (l.values arena)), arena)
  | (.error e, arena) => (.error e, arena)

/-- Take the values of all variables of an action away. -/
def clear (arena : Arena) (a : Action) : Arena :=
  a.positive.clear (a.negative.clear (a.preconditions.clear arena))

/-- Bind parameters to values from left to right: whether each was accepted, and the arena. -/
def assign (arena : Arena) (a : Action) (values : List String) : List Bool × Arena :=
  (a.parameters.zip values).foldl
    (fun (answers, arena) (i, value) =>
      let (accepted, arena) := arena.bind i value
      (answers ++ [accepted], arena))
    ([], arena)

end Action

end Strips
