import Strips.Graph.Search
import Strips.Layer.Actions

/-!
# Levels

A level of a planning graph is a fact layer with the action layer that leads to it, the steps that
support each of its facts, and the sets of facts that are known to be out of reach there.
-/

namespace Strips

/-- A fact layer, the action layer that leads to it and what supports its facts. -/
structure Level where
  facts : FactLayer := {}
  /-- The first level has no actions. -/
  actions : Option ActionLayer := none
  /-- For each fact the steps that add it. -/
  support : Index Fact Step := []
  /-- Sets of facts that cannot be reached at this level, in the order of recording. -/
  noGoods : List (List Fact) := []
  deriving Repr

namespace Level

/-- Whether two steps of the level exclude each other. -/
def isMutex (level : Level) (s t : Step) : Bool :=
  match level.actions with
  | some actions => actions.isMutex s t
  | none => false

/-- The level as the search sees it. -/
def stage (level : Level) : Stage Fact Step :=
  ⟨level.facts.supports, level.isMutex, level.support.lookup⟩

/-- The number of steps that lead to the level. -/
def actionCount (level : Level) : Nat := (level.actions.map (·.steps.length)).getD 0

/-- The number of pairs of steps that exclude each other. -/
def actionMutexCount (level : Level) : Nat := (level.actions.map (·.mutexes.size)).getD 0

end Level

end Strips
