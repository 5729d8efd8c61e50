import Strips.Problem
import Strips.Workbench.Lookup

/-!
# Actions on a workbench

Action objects are built from literals, bound, copied, filed and applied. The instances of a schema
over a layer are found on the cells of the workbench, so that a literal of the layer may itself
change while they are looked for.

## Main definitions

* `Bench.build`, `Bench.copy`, `Bench.assign`, `Bench.freeze` – single actions.
* `Bench.find`, `Bench.register` – instances of a schema, and actions in files.
* `Bench.load` – the objects of a problem.
* `Bench.apply`, `Bench.runPlan` – actions and plans on sets of literals.
-/

namespace Strips

namespace Bench

/-! ### Single actions -/

/-- Add the action that was built, if it was. -/
def addBuilt (built : Except SchemaError Action × Arena) : Bench Handle := do
  setArena built.2
  match built.1 with
  | .ok a => add (.action a)
  | .error e => throw (.schema e)

/-- Build an action. -/
def build (name : String) (preconditions negative positive : List Literal) : Bench Handle := do
  addBuilt (Action.build (← arena) name preconditions negative positive)

/-- The action that keeps what a literal says. -/
def noop (l : Literal) : Bench Handle := do addBuilt (Action.noopOf (← arena) l)

/-- A ground copy of an action, as an instance. -/
def copy (handle : Handle) : Bench Handle := do
  let a ← action handle
  match a.step? (← arena) with
  | some s => add (.action (s.toAction.freeze .empty (a.arguments (← arena))))
  | none => throw (.openAction (a.text (← arena)))

/-- Make an action an instance. -/
def freeze (handle : Handle) (arguments : List (Option String)) : Bench Action := do
  let a := (← action handle).freeze (← arena) arguments
  put handle (.action a)
  return a

/-- The key of an instance. -/
def key (handle : Handle) : Bench ActionKey := do
  let a ← action handle
  match a.key with
  | some key => return key
  | none => throw (.noKey a.name)

/-- Bind the parameters of an action from left to right. -/
def assign (handle : Handle) (values : List (Option String)) : Bench (List Bool) := do
  ((← action handle).parameters.zip values).mapM fun (i, value) => bind i value

/-- Take the values of all variables of an action away. -/
def clearAction (handle : Handle) : Bench Unit := do
  setArena ((← action handle).clear (← arena))

/-- The actions of a list that are no no-ops. -/
def withoutNoops (actions : List Handle) : Bench (List Handle) :=
  actions.filterM fun h => return !(← action h).noop

/-! ### Files -/

/-- A file, which is a new one unless it is given. -/
def fileOr : Option Handle → Bench Handle
  | some handle => return handle
  | none => add (.file {})

/-- File an action under the given literals. -/
def fileIn (into handle : Handle) (ls : List Literal) : Bench Unit := do
  let a ← action handle
  let f ← file into
  put into (.file { f with filings := (← get).fileAll ⟨handle, a⟩ ls f.filings })

/-- File an action under what it deletes and what it adds. -/
def register (handle into : Handle) : Bench Unit := do
  let a ← action handle
  fileIn into handle (a.negative.members ++ a.positive.members)

/-- The literals and the exclusions of a fact layer. -/
def factLayer (handle : Handle) : Bench (LiteralSet × Exclusions) := do
  match (← item handle) with
  | .factLayer facts mutexes => return (facts, mutexes)
  | _ => throw .wrongKind

/-! ### Instances -/

/-- Add the instance that a schema says under the present values to a file, if it says one that is
not there yet. -/
def addInstance (schema into : Handle) (dependencies : Option Handle) : Bench Unit := do
  if (← action schema).isGround (← arena) then
    let h ← copy schema
    let key ← key h
    let f ← file into
    if !f.instances.any (·.1.same key) then
      put into (.file { f with instances := f.instances ++ [(key, h)] })
      dependencies.forM (register h)

/-- Unify preconditions with literals of a layer, from left to right, and do something under each
assignment. What was bound for one assignment is unbound before the next. With `strict`, literals
that exclude one of those already matched are left out. -/
def underAssignments (layer : LiteralSet × Exclusions) (strict : Bool) (visit : Bench Unit) :
    List Literal → List Literal → Bench Unit
  | [], _ => visit
  | l :: rest, chosen =>
    (layer.1.named l.name).forM fun fact => do
      let b ← get
      let isMutex := fun (m : Literal) => layer.2.contains b (.literal fact) (.literal m)
      if !(strict && chosen.any isMutex) then
        if let some bound ← unify l fact then
          underAssignments layer strict visit rest (chosen ++ [fact])
          bound.forM fun i => do setArena ((← arena).clear i)

/-- Add the instances of a schema over a layer to a file, and file the new ones under what they
delete and add: how many are new. The cells of the schema are unbound before and afterwards, also
when the search fails. -/
def find (schema layer into : Handle) (dependencies : Option Handle) (strict : Bool) :
    Bench Nat := do
  let a ← action schema
  if a.isInstance then throw (.layer (.alreadyGround (a.text (← arena))))
  let layer ← factLayer layer
  let before := (← file into).instances.length
  clearAction schema
  tryCatch
    (underAssignments layer strict (addInstance schema into dependencies) a.preconditions.members
      [])
    fun e => do
      clearAction schema
      throw e
  clearAction schema
  return (← file into).instances.length - before

/-! ### Problems and plans -/

/-- Add the objects of a problem: its schemas, with cells in scopes of their own, its initial facts
and its goals. -/
def load (p : Problem) : Bench (List Handle × LiteralSet × LiteralSet) := do
  let schemas ← p.schemas.mapM fun s => do
    let (a, arena) := s.moveInto (← arena) (← newScope)
    setArena arena
    add (.action a)
  return (schemas, ⟨p.initial.map Fact.literal⟩, ⟨p.goals.map Fact.literal⟩)

/-- The set after an action. -/
def applyAction (arena : Arena) (s : IndexedSet) (a : Action) : Except ApplyError IndexedSet :=
  let missing := a.preconditions.members.filter fun l => !s.contains arena l
  if !a.isGround arena then .error (.notGround (a.text arena))
  else if !missing.isEmpty then .error (.missing (a.text arena) (missing.map (·.shown arena)))
  else
    let kept := s.items.filter fun l => !a.negative.contains arena l
    .ok ((IndexedSet.ofList arena kept).insertMany arena a.positive.members)

/-- The set after the rest of a plan, from its action number `index` on. -/
def applyFrom (arena : Arena) (index : Nat) (s : IndexedSet) :
    List Action → Except RunError IndexedSet
  | [] => .ok s
  | a :: rest =>
    match applyAction arena s a with
    | .ok s => applyFrom arena (index + 1) s rest
    | .error cause => .error ⟨index, cause⟩

/-- The set after an action. -/
def apply (state handle : Handle) : Bench IndexedSet := do
  match applyAction (← arena) (← set state) (← action handle) with
  | .ok s => return s
  | .error e => throw (.apply e)

/-- The set after a plan. -/
def runPlan (state : List Literal) (plan : List Handle) : Bench IndexedSet := do
  let arena ← arena
  match applyFrom arena 0 (.ofList arena state) (← actions plan) with
  | .ok s => return s
  | .error e => throw (.run e)

/-- Whether a plan runs and leads to all goals. -/
def achieves (state : List Literal) (plan : List Handle) (goals : List Literal) : Bench Bool := do
  let arena ← arena
  match applyFrom arena 0 (.ofList arena state) (← actions plan) with
  | .ok s => return s.containsAll arena goals
  | .error _ => return false

end Bench

end Strips
