import Strips.Pddl.Task
import Strips.Schema

/-!
# Problems as PDDL tasks

The task of a problem has the schemas as operators. The constants that occur in schemas are declared
with the domain, all other constants with the problem, and each predicate has one arity.

Lists of names are in the order of the names as they were written, not of their exported forms.

## Main definitions

* `Pddl.exportTask` – the task of schemas, initial facts and goals.
-/

namespace Strips.Pddl

/-- Why a problem has no task. -/
inductive ExportError where
  /-- A predicate with two arities. -/
  | arity (predicate : String) (first other : Nat)
  /-- An inequality about a variable that no literal of the action has. -/
  | freeVariable
  deriving DecidableEq, Repr

/-- The message about a problem that has no task. -/
def ExportError.message : ExportError → String
  | arity predicate first other =>
    s!"Predicate '{predicate}' is used with arity {first} and {other}"
  | freeVariable => "Cannot export a variable that is not an action parameter"

/-- Put a string in its place in an ordered list. -/
def insertSorted (s : String) : List String → List String
  | [] => [s]
  | t :: rest => if t < s then t :: insertSorted s rest else s :: t :: rest

/-- Different strings in order. -/
def sortNames (names : List String) : List String :=
  names.eraseDups.foldr insertSorted []

/-- The literals of an action, in the order in which they are looked at. -/
def literals (a : Action) : List Literal :=
  a.preconditions.members ++ a.negative.members ++ a.positive.members

/-- Record the arity of a predicate, or refuse another one. -/
def record (signatures : List (String × Nat)) (use : String × Nat) :
    Except ExportError (List (String × Nat)) :=
  match signatures.lookup use.1 with
  | none => .ok (signatures ++ [use])
  | some n => if n = use.2 then .ok signatures else .error (.arity use.1 n use.2)

/-- The predicates of a problem with their arities. -/
def signatures (schemas : List Schema) (facts : List Fact) :
    Except ExportError (List (String × Nat)) :=
  let uses := (schemas.flatMap fun s => (literals s.action).map fun l => (l.name, l.arity)) ++
    facts.map fun f => (f.name, f.arguments.length)
  uses.foldlM record []

/-- The constants of a literal. -/
def constants (arena : Arena) (l : Literal) : List String :=
  l.terms.filterMap fun t => if t.isConstant arena then t.value? arena else none

/-- The argument that a term of a schema is exported as. -/
def exportTerm (s : Schema) (t : Term) : Except ExportError Argument :=
  match t.isConstant s.arena, t with
  | true, t => .ok (.object (exportName ((t.value? s.arena).getD "")))
  | false, .cell i =>
    match s.action.parameters.idxOf? i with
    | some index => .ok (.parameter index)
    | none => .error .freeVariable
  | false, .const value => .ok (.object (exportName value))

/-- The atom that a literal of a schema is exported as. -/
def exportLiteral (s : Schema) (l : Literal) : Except ExportError (Atom Argument) :=
  (l.terms.mapM (exportTerm s)).map fun arguments => ⟨exportName l.name, arguments⟩

/-- The operator that a schema is exported as. -/
def exportSchema (s : Schema) : Except ExportError Operator := do
  let preconditions ← s.action.preconditions.members.mapM (exportLiteral s)
  let unequal ← s.action.distinct.mapM fun (a, b) => do
    return (← exportTerm s a, ← exportTerm s b)
  let added ← s.action.positive.members.mapM (exportLiteral s)
  let deleted ← s.action.negative.members.mapM (exportLiteral s)
  return ⟨exportName s.action.name, s.action.parameters.length, preconditions, unequal, added,
    deleted⟩

/-- The atom that a fact is exported as. -/
def exportFact (f : Fact) : Atom String := ⟨exportName f.name, f.arguments.map exportName⟩

/-- The task of a problem. -/
def exportTask (domainName problemName : String) (schemas : List Schema)
    (initial goals : List Fact) : Except ExportError Task := do
  let predicates ← signatures schemas (initial ++ goals)
  let used := sortNames (schemas.flatMap fun s =>
    (literals s.action).flatMap (constants s.arena))
  let other := sortNames ((initial ++ goals).flatMap Fact.arguments)
  let operators ← schemas.mapM exportSchema
  return {
    domainName := exportName domainName
    problemName := exportName problemName
    constants := used.map exportName
    predicates := (sortNames (predicates.map Prod.fst)).map fun name =>
      (exportName name, (predicates.lookup name).getD 0)
    operators
    objects := (other.filter fun name => !used.contains name).map exportName
    initial := initial.map exportFact
    goals := goals.map exportFact }

/-- The name of a domain unless another one is asked for. -/
def defaultDomainName : String := "graphplan"

/-- The name of a problem unless another one is asked for. -/
def defaultProblemName : String := "task"

end Strips.Pddl
