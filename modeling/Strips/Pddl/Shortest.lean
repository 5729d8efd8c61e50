import Std.Data.HashSet
import Strips.Pddl.Reference

/-!
# Shortest plans of a task

Breadth-first search over the states of a task. It gives a shortest plan, or none when the search is
exhausted, and so tells how long the plan of any other planner has to be at least.

A state is a list of atoms in the order of their text, each once, so that equal states are equal
lists. Operators are instantiated by matching their preconditions with the atoms of a state.

## Main definitions

* `Pddl.Task.shortestPlan` – a shortest plan, as names of operators with their arguments.
-/

namespace Strips.Pddl

/-- Values of parameters, as far as they are known. -/
abbrev Assignment : Type := List (Nat × String)

/-- Extend an assignment so that the arguments become the given names. -/
def matchArguments (assignment : Assignment) : List (Argument × String) → Option Assignment
  | [] => some assignment
  | (.object name, value) :: rest =>
    if name = value then matchArguments assignment rest else none
  | (.parameter i, value) :: rest =>
    match assignment.lookup i with
    | some known => if known = value then matchArguments assignment rest else none
    | none => matchArguments ((i, value) :: assignment) rest

/-- The assignments under which all the given atoms are in a state. -/
def matchAtoms (state : List (Atom String)) : List (Atom Argument) → Assignment → List Assignment
  | [], assignment => [assignment]
  | a :: rest, assignment =>
    state.flatMap fun fact =>
      if fact.name = a.name && fact.arguments.length = a.arguments.length then
        match matchArguments assignment (a.arguments.zip fact.arguments) with
        | some assignment => matchAtoms state rest assignment
        | none => []
      else []

/-- The values of the parameters of an operator under an assignment. -/
def Operator.values (o : Operator) (assignment : Assignment) : List String :=
  (List.range o.arity).map fun i => (assignment.lookup i).getD ""

/-- Put an atom in its place in an ordered state. -/
def insertAtom (a : Atom String) : List (Atom String) → List (Atom String)
  | [] => [a]
  | b :: rest =>
    if a = b then b :: rest
    else if b.text < a.text then b :: insertAtom a rest
    else a :: b :: rest

/-- A state in order. -/
def orderState (state : List (Atom String)) : List (Atom String) := state.foldr insertAtom []

/-- The states after one operator, with the operators that lead to them. -/
def Task.successors (t : Task) (state : List (Atom String)) :
    List ((String × List String) × List (Atom String)) :=
  t.operators.flatMap fun o =>
    (matchAtoms state o.preconditions []).filterMap fun assignment =>
      let values := o.values assignment
      if o.allows values then some ((o.name, values), orderState ((o.bind values).after state))
      else none

/-- A state, with the operators that led to it, the last one first. -/
structure Node where
  state : List (Atom String)
  calls : ReferencePlan

/-- A state as one text. -/
def stateKey (state : List (Atom String)) : String := String.join (state.map Atom.text)

/-- Whether the goals hold in a state. -/
def Task.isGoal (t : Task) (state : List (Atom String)) : Bool := t.goals.all state.contains

/-- The states of the next layer, from one state of the present layer. -/
def expandNode (t : Task) (acc : List Node × Std.HashSet String) (n : Node) :
    List Node × Std.HashSet String :=
  (t.successors n.state).foldl
    (fun (next, seen) (call, state) =>
      let key := stateKey state
      if seen.contains key then (next, seen)
      else (⟨state, call :: n.calls⟩ :: next, seen.insert key))
    acc

/-- Search layer by layer. Each layer but the last holds a state not seen before. -/
def Task.searchLayers (t : Task) : Nat → List Node → Std.HashSet String → Option ReferencePlan
  | 0, _, _ => none
  | fuel + 1, layer, seen =>
    match layer.find? fun n => t.isGoal n.state with
    | some n => some n.calls.reverse
    | none =>
      if layer.isEmpty then none
      else
        let (next, seen) := layer.foldl (expandNode t) ([], seen)
        t.searchLayers fuel next.reverse seen

/-! ### The number of layers -/

/-- A bound on the number of different atoms in the states of the search. -/
def Task.atomBound (t : Task) : Nat :=
  let assignments := t.operators.flatMap fun o =>
    o.added.map fun a => Nat.pow t.universe.length a.arguments.length
  t.initial.length + assignments.foldr (· + ·) 0

/-- Add what operators can add, deletes left out, until nothing new comes. -/
def Task.relax (t : Task) : Nat → List (Atom String) → List (Atom String)
  | 0, atoms => atoms
  | fuel + 1, atoms =>
    let added := t.operators.flatMap fun o =>
      (matchAtoms atoms o.preconditions []).flatMap fun assignment =>
        (o.bind (o.values assignment)).added
    let more := (atoms ++ added).eraseDups
    if more.length = atoms.length then atoms else t.relax fuel more

/-- The number of states that the search can meet: the subsets of the atoms that can ever hold. -/
def Task.stateBound (t : Task) : Nat :=
  Nat.pow 2 (t.relax (t.atomBound + 1) (orderState t.initial)).length

/-- A shortest plan, or none if there is no plan. -/
def Task.shortestPlan (t : Task) : Option ReferencePlan :=
  let start := orderState t.initial
  t.searchLayers (t.stateBound + 1) [⟨start, []⟩]
    ((∅ : Std.HashSet String).insert (stateKey start))

end Strips.Pddl
