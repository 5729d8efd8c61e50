import Strips.Graph

/-!
# Reports

Layers, levels and graphs in their printed form: each fact and each action stands as its text.
A report says all that can be seen of a graph from outside, so that a graph of values and a graph of
objects are shown in the same way.

## Main definitions

* `LayerReport`, `LevelReport`, `GraphReport` – the printed forms.
* `FactLayer.report`, `ActionLayer.report`, `Level.report`, `Graph.report` – how they are made.
-/

namespace Strips

/-- The members of a layer and the pairs that exclude each other. -/
structure LayerReport where
  members : List String
  mutexes : List (String × String)
  deriving DecidableEq, Repr

namespace LayerReport

/-- The facts of a layer on one line. -/
def factText (r : LayerReport) : String :=
  let facts := ",".intercalate r.members
  s!"FactLayer({facts})"

/-- The sizes of a fact layer on one line. -/
def factSummary (r : LayerReport) : String :=
  s!"FactLayer(n_facts={r.members.length}, n_mutexes={r.mutexes.length})"

/-- The sizes of an action layer on one line. -/
def actionSummary (r : LayerReport) : String :=
  s!"ActionLayer(n_actions={r.members.length}, n_mutexes={r.mutexes.length})"

end LayerReport

/-- The parts of a level. -/
structure LevelReport where
  facts : LayerReport
  /-- The first level has no actions. -/
  actions : Option LayerReport
  /-- For each fact the actions that add it. -/
  support : List (String × List String)
  noGoods : List String
  deriving DecidableEq, Repr

/-- The sizes of a level on one line. -/
def LevelReport.summary (r : LevelReport) : String :=
  let actions := (r.actions.map (·.members.length)).getD 0
  s!"BiLayer(n_actions={actions}, n_facts={r.facts.members.length}, " ++
    s!"n_no_goods={r.noGoods.length})"

/-- The parts of a graph. -/
structure GraphReport where
  /-- The levels, the initial one first. -/
  levels : List LevelReport
  goals : List String
  fixedPoint : Option Nat
  schemas : List String
  deriving DecidableEq, Repr

namespace GraphReport

/-- The number of expansions so far. -/
def layersBuilt (r : GraphReport) : Nat := r.levels.length - 1

/-- The sizes of the level at the fixed point on one line. -/
def fixedPointText (r : GraphReport) : String :=
  ((r.fixedPoint.bind (r.levels[·]?)).map LevelReport.summary).getD "None"

end GraphReport

/-- The report on a fact layer. -/
def FactLayer.report (layer : FactLayer) : LayerReport :=
  ⟨layer.facts.map Fact.text, layer.mutexes.pairs.map fun (f, g) => (f.text, g.text)⟩

/-- The report on an action layer. -/
def ActionLayer.report (layer : ActionLayer) : LayerReport :=
  ⟨layer.steps.map Step.text, layer.mutexes.pairs.map fun (s, t) => (s.text, t.text)⟩

/-- The report on a level. -/
def Level.report (level : Level) : LevelReport :=
  { facts := level.facts.report
    actions := level.actions.map ActionLayer.report
    support := level.support.map fun (f, steps) => (f.text, steps.map Step.text)
    noGoods := level.noGoods.map factsText }

/-- The report on a graph. -/
def Graph.report (g : Graph) : GraphReport :=
  { levels := g.levels.reverse.map Level.report
    goals := g.goals.map (·.text .empty)
    fixedPoint := g.fixedPoint
    schemas := g.schemas.map Schema.text }

end Strips
