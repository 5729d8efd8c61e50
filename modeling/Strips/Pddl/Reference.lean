import Strips.Pddl.Export

/-!
# Reference planners

A second planner can be asked for a plan of a problem that was exported. It is no part of this
library: what is here is the task it is given, the search it is asked for, and what stands against
asking it.

## Main definitions

* `Pddl.Search.named` – the search that goes by a name.
* `Pddl.referenceTask` – the task that a reference planner is given.
-/

namespace Strips.Pddl

/-- The searches that a reference planner can be asked for. -/
inductive Search where
  | astar
  | wastar
  | gbf
  | bfs
  | ehs
  | ids
  | sat
  deriving DecidableEq, Repr

/-- A plan of a reference planner: names of operators with their arguments. -/
abbrev ReferencePlan : Type := List (String × List String)

/-- Why there is no answer about a reference plan. -/
inductive ReferenceError where
  /-- There is no search of this name. -/
  | unknownSearch (name : String)
  /-- Actions, by name, with inequality constraints. -/
  | constrained (actions : List String)
  | exportFailed (cause : ExportError)
  /-- The planner was asked, and failed. -/
  | searchFailed (message : String)
  deriving DecidableEq, Repr

/-- The message about a missing answer. -/
def ReferenceError.message : ReferenceError → String
  | unknownSearch name => s!"Unknown pyperplan search '{name}'"
  | constrained actions =>
    "pyperplan does not support distinct constraints (actions: " ++
      ", ".intercalate actions ++ ")"
  | exportFailed cause => cause.message
  | searchFailed message => message

namespace Search

/-- The name of a search. -/
def name : Search → String
  | astar => "astar"
  | wastar => "wastar"
  | gbf => "gbf"
  | bfs => "bfs"
  | ehs => "ehs"
  | ids => "ids"
  | sat => "sat"

/-- All searches. -/
def all : List Search := [astar, wastar, gbf, bfs, ehs, ids, sat]

/-- The search that goes by a name. -/
def named (name : String) : Except ReferenceError Search :=
  match all.find? (·.name == name) with
  | some search => .ok search
  | none => .error (.unknownSearch name)

end Search

/-- Whether a reference planner can be asked: there are no inequality constraints. -/
def supports (schemas : List Schema) : Bool := schemas.all (·.action.distinct.isEmpty)

/-- The task that a reference planner is given. -/
def referenceTask (schemas : List Schema) (initial goals : List Fact) :
    Except ReferenceError Task :=
  let constrained := schemas.filter fun s => !s.action.distinct.isEmpty
  if !constrained.isEmpty then .error (.constrained (constrained.map (·.action.name)))
  else (exportTask defaultDomainName defaultProblemName schemas initial goals).mapError
    .exportFailed

end Strips.Pddl
