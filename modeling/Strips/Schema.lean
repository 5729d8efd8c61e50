import Strips.Step
import Strips.Layer.Facts

/-!
# Schemas and their instances

A schema is an action together with the arena of its cells. Its instances over a fact layer are the
steps that arise when each precondition is unified with a fact of the layer, from left to right,
under one assignment of the variables.

## Main definitions

* `Schema.assignments` – the arenas in which every precondition says a fact of the layer.
* `Schema.instances` – the steps under these assignments.
-/

namespace Strips

/-- An action with the arena of its cells. -/
structure Schema where
  action : Action
  arena : Arena
  deriving DecidableEq, Repr

namespace Schema

/-- The printed form of a schema. -/
def text (s : Schema) : String := s.action.text s.arena

/-- Whether the action has arguments of its own, and so cannot be instantiated. -/
def isInstance (s : Schema) : Bool := s.action.isInstance

/-- The schema with all its variables unbound. -/
def clear (s : Schema) : Schema := { s with arena := s.action.clear s.arena }

/-- The action with its cells put after those of another arena, in scopes from `scope` on. -/
def moveInto (s : Schema) (arena : Arena) (scope : Nat) : Action × Arena :=
  (s.action.shift arena.size, arena.append s.arena scope)

/-- Unify the preconditions with facts of a layer, from left to right. With `strict`, facts that
exclude one of those already matched are left out. -/
def assignments (layer : FactLayer) (strict : Bool) :
    List Literal → List Fact → Arena → List Arena
  | [], _, arena => [arena]
  | l :: rest, chosen, arena =>
    (layer.named l.name).flatMap fun f =>
      if strict && chosen.any (layer.isMutex f) then []
      else match l.unify arena f.literal with
        | (.matched _, arena) => assignments layer strict rest (chosen ++ [f]) arena
        | _ => []

/-- The instances of a schema over a layer, in the order in which the search meets them; the same
step may arise more than once. -/
def instances (s : Schema) (layer : FactLayer) (strict : Bool) : List Step :=
  (assignments layer strict s.action.preconditions.members [] s.clear.arena).filterMap
    fun arena => s.action.step? arena

/-- The step under given values of the parameters, from left to right, all other variables unbound;
or the printed form of the action when that leaves one of its variables without a value. -/
def instantiate (s : Schema) (values : List String) : Except String Step :=
  let arena := (s.action.assign s.clear.arena values).2
  match s.action.step? arena with
  | some step => .ok step
  | none => .error (s.action.text arena)

end Schema

/-- Append the steps that are not there yet. -/
def appendNew (steps : List Step) : List Step → List Step
  | [] => steps
  | s :: rest => if steps.contains s then appendNew steps rest else appendNew (steps ++ [s]) rest

/-- Why no action layer can be built. -/
inductive LayerError where
  /-- A fact that no step can keep. -/
  | schema (cause : SchemaError)
  /-- An action, printed, that is an instance already. -/
  | alreadyGround (action : String)
  deriving DecidableEq, Repr

/-- The message about an action layer that cannot be built. -/
def LayerError.message : LayerError → String
  | schema cause => cause.message
  | alreadyGround action => s!"{action} is already ground"

end Strips
