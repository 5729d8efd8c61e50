import Strips.Index
import Strips.Schema

/-!
# Action layers

An action layer holds the steps that may be taken next, and the pairs of steps that cannot be taken
together: one deletes what the other adds, or what the other needs. In strict mode two steps also
exclude each other when they need facts that do.

The pairs are found through indices. For each fact that some step deletes, the steps that add it and
the steps that need it are looked up, so that steps with nothing in common are never compared.

## Main definitions

* `FactLayer.buildActions` – the action layer over a fact layer.
* `ActionLayer.findMutexes` – the pairs that exclude each other.
* `ActionLayer.buildFacts` – the fact layer that follows.
-/

namespace Strips

/-- Steps with the pairs that exclude each other. -/
structure ActionLayer where
  steps : List Step := []
  mutexes : PairRelation Step := {}
  deriving Repr

/-- File a step under the facts that it deletes or adds. -/
def Index.fileEffects (index : Index Fact Step) (s : Step) : Index Fact Step :=
  (index.fileUnder s.deleted s).fileUnder s.added s

namespace ActionLayer

/-- Make two steps exclude each other, unless they are the same. -/
def addMutex (layer : ActionLayer) (s t : Step) : ActionLayer :=
  if s == t then layer else { layer with mutexes := layer.mutexes.add s t }

/-- Whether two steps exclude each other. -/
def isMutex (layer : ActionLayer) (s t : Step) : Bool := layer.mutexes.contains s t

/-- Make every step of one list exclude every step of another. -/
def addMutexes (layer : ActionLayer) (ss ts : List Step) : ActionLayer :=
  ss.foldl (fun layer s => ts.foldl (fun layer t => layer.addMutex s t) layer) layer

/-- The steps under the facts that they delete or add. -/
def effects (layer : ActionLayer) : Index Fact Step := layer.steps.foldl Index.fileEffects []

/-- The steps under the facts that they need. -/
def consumers (layer : ActionLayer) : Index Fact Step :=
  layer.steps.foldl (fun index s => index.fileUnder s.preconditions s) []

/-- The pairs that arise from one fact and the steps that delete or add it. -/
def findMutexesAt (layer : ActionLayer) (consumers : Index Fact Step) (f : Fact)
    (affected : List Step) : ActionLayer :=
  let deleters := affected.filter (·.deleted.contains f)
  if deleters.isEmpty then layer
  else
    let producers := affected.filter (·.added.contains f)
    layer.addMutexes deleters (producers ++ consumers.lookup f)

/-- Find the pairs that exclude each other. `effects` files steps under the facts that they delete
or add; with a fact layer, steps that need mutually exclusive facts of it are found too. -/
def findMutexes (layer : ActionLayer) (source : Option FactLayer) (effects : Index Fact Step) :
    ActionLayer :=
  let consumers := layer.consumers
  let layer :=
    effects.foldl (fun layer (f, affected) => layer.findMutexesAt consumers f affected) layer
  match source with
  | none => layer
  | some facts =>
    facts.mutexes.pairs.foldl
      (fun layer (f, g) => layer.addMutexes (consumers.lookup f) (consumers.lookup g)) layer

/-- Whether some step of one list does not exclude some step of another. -/
def compatible (layer : ActionLayer) (ss ts : List Step) : Bool :=
  ss.any fun s => ts.any fun t => !layer.isMutex s t

/-- File the steps of the layer under the facts that they add. -/
def fileSupport (layer : ActionLayer) (support : Index Fact Step) : Index Fact Step :=
  layer.steps.foldl (fun support s => support.fileUnder s.added s) support

/-- The pairs of facts, each fact with itself and with those after it, that no two compatible steps
support. -/
def unsupportedPairs (layer : ActionLayer) (support : Index Fact Step) (facts : List Fact) :
    List (Fact × Fact) :=
  let supported := facts.map fun f => (f, support.lookup f)
  ((pairsWithin supported).filter fun (x, y) => !layer.compatible x.2 y.2).map fun (x, y) =>
    (x.1, y.1)

/-- The fact layer that follows: the facts under which steps are filed, in order, two of them
mutually exclusive when no two compatible steps support them. -/
def factsOf (layer : ActionLayer) (support : Index Fact Step) : FactLayer :=
  let facts := Fact.sort support.keys
  (layer.unsupportedPairs support facts).foldl (fun facts (f, g) => facts.addMutex f g)
    (FactLayer.ofList facts)

/-- The fact layer that follows, and the steps that support each of its facts. -/
def buildFacts (layer : ActionLayer) (support : Index Fact Step) : FactLayer × Index Fact Step :=
  let support := layer.fileSupport support
  (layer.factsOf support, support)

/-- The message about a schema that an action layer cannot hold. -/
def notGroundMessage (name : String) : String :=
  s!"Action layers only hold ground actions, got schema {name}"

end ActionLayer

/-- The action layer over a fact layer: for each fact the step that keeps it, then the instances of
the schemas. `effects` is extended by the new steps, and the mutexes are read off it. -/
def FactLayer.buildActions (layer : FactLayer) (schemas : List Schema) (strict : Bool)
    (effects : Index Fact Step) : Except LayerError (ActionLayer × Index Fact Step) :=
  match layer.facts.mapM Step.keep with
  | .error e => .error (.schema e)
  | .ok noops =>
    match schemas.find? Schema.isInstance with
    | some s => .error (.alreadyGround s.text)
    | none =>
      let found := schemas.foldl (fun steps s => appendNew steps (s.instances layer strict)) []
      let effects := (noops ++ found).foldl Index.fileEffects effects
      let actions : ActionLayer := { steps := noops ++ found }
      .ok (actions.findMutexes (if strict then some layer else none) effects, effects)

end Strips
