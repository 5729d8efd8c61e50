import Strips.Workbench.Layers

/-!
# Levels and graphs on a workbench

A level refers to its layers and to a file of what supports its facts, and a graph to its schemas
and levels, so a layer may be changed after a level or a graph was made of it. A graph grows by new
objects. The search for a plan is the one that `search` describes, on the levels as they are at that
moment.

## Main definitions

* `Bench.levelOf`, `Bench.addNoGood`, `Bench.isNoGood` – levels.
* `Bench.start`, `Bench.expand`, `Bench.extract`, `Bench.solve` – graphs.
-/

namespace Strips

namespace Workbench

/-- The literals that an action needs, with what they say now. -/
def needs (b : Workbench) (x : Actor) : List Saying := b.sayings x.action.preconditions

/-- A level as the search sees it, given its parts. -/
def stage (b : Workbench) (facts : LiteralSet × Exclusions) (actions : Exclusions)
    (support : List Filing) : Stage Saying Actor :=
  let held := b.sayings facts.1
  let support := b.index support
  ⟨b.supports held facts.2, actions.containsActions b, support.lookup⟩

end Workbench

namespace Bench

/-! ### Levels -/

/-- The level of a handle. -/
def level (handle : Handle) : Bench LevelItem := do
  match (← item handle) with
  | .level level => return level
  | _ => throw .wrongKind

/-- Add a level of the given layers. -/
def levelOf (facts : Handle) (actions support : Option Handle) : Bench Handle := do
  add (.level { facts, actions, support := ← fileOr support })

/-- Record literals as out of reach at a level: how many such sets it has now. -/
def addNoGood (handle : Handle) (facts : List Literal) : Bench Nat := do
  let l ← level handle
  let noGoods := l.noGoods ++ [.ofList (← arena) facts]
  put handle (.level { l with noGoods })
  return noGoods.length

/-- Whether a set of literals contains one that is out of reach at a level. -/
def isNoGood (handle : Handle) (facts : List Literal) : Bench Bool := do
  let b ← get
  return containsNoGood ((← level handle).noGoods.map b.sayings) (facts.map b.saying)

/-- A level as the search sees it. -/
def stage (handle : Handle) : Bench (Stage Saying Actor) := do
  let l ← level handle
  let facts ← factLayer l.facts
  let mutexes ← match l.actions with
    | some actions => pure (← actionLayer actions).2
    | none => pure {}
  return (← get).stage facts mutexes (← file l.support).filings

/-- The report on a level. -/
def levelReport (handle : Handle) : Bench LevelReport := do
  let l ← level handle
  let b ← get
  return {
    facts := ← factReport l.facts
    actions := ← l.actions.mapM actionReport
    support := b.fileTexts (← file l.support).filings
    noGoods := l.noGoods.map (·.text b.arena) }

/-! ### Graphs -/

/-- The graph of a handle. -/
def graph (handle : Handle) : Bench GraphItem := do
  match (← item handle) with
  | .graph g => return g
  | _ => throw .wrongKind

/-- The levels of a graph, the newest first. A graph without levels is not ready for work. -/
def levels (g : GraphItem) : Bench (List Handle) :=
  if g.levels.isEmpty then throw (.graph .notLoaded) else return g.levels.reverse

/-- Add a graph without a problem. -/
def newGraph (strict : Bool) (budget : Int) : Bench Handle :=
  match Graph.create strict budget with
  | .ok g => add (.graph { strict := g.strict, budget := g.budget })
  | .error e => throw (.graph e)

/-- Load schemas, initial literals and goals on a graph. Schemas and goals that were accepted before
a failure are kept. -/
def start (handle : Handle) (schemas : List Handle) (initial goals : List Literal) :
    Bench Unit := do
  let arena ← arena
  let g := { ← graph handle with schemas }
  put handle (.graph g)
  schemas.forM fun h => do
    let a ← action h
    if a.isInstance then throw (.graph (.groundAction (a.text arena)))
  let g := { g with goals := .ofList arena goals }
  put handle (.graph g)
  if !g.goals.isGround arena then throw (.graph (.openGoals (g.goals.text arena)))
  let initial := LiteralSet.ofList arena initial
  if !initial.isGround arena then throw (.graph (.openFacts (initial.text arena)))
  let first ← levelOf (← factLayerOf initial.members) none none
  put handle (.graph {
    strict := g.strict
    budget := g.budget
    schemas := g.schemas
    goals := g.goals
    levels := [first] })

/-- Whether the newest level supports the goals. -/
def isGoalReachable (handle : Handle) : Bench Bool := do
  let g ← graph handle
  let _ ← levels g
  return g.goalsReachable

/-- Note what is known of the newest level: the fixed point, and whether the goals are reachable.
Whether the graph can usefully grow. -/
def assess (handle facts : Handle) (fixedPoint : Option Nat) : Bench Bool := do
  let g ← graph handle
  put handle (.graph { g with fixedPoint })
  let goalsReachable ← supports facts g.goals.members
  put handle (.graph { g with fixedPoint, goalsReachable })
  return goalsReachable || fixedPoint.isNone

/-- Derive the next level. The answer is `false` when the fixed point is reached and the goals are
still not reachable. -/
def expand (handle : Handle) : Bench Bool := do
  let g ← graph handle
  let newest ← level ((← levels g).headD 0)
  let support ← add (.file {})
  let actions ← buildActions newest.facts g.schemas none g.strict
  let facts ← buildFacts actions (some support)
  let index := g.levels.length
  let next ← levelOf facts (some actions) (some support)
  put handle (.graph { g with levels := g.levels ++ [next] })
  let stable ← sameFacts newest.facts facts
  match stable, g.fixedPoint with
  | false, some fixedPoint => throw (.graph (.unstable index fixedPoint))
  | _, _ => assess handle facts (g.fixedPoint.or (if stable then some index else none))

/-- Search for a plan that ends at the newest level, no-ops included. -/
def extract (handle : Handle) : Bench (Option (List Handle)) := do
  let g ← graph handle
  let handles ← levels g
  if !g.goalsReachable then return none
  put handle (.graph { g with attempts := g.attempts + 1 })
  let stages ← handles.mapM stage
  let noGoods ← handles.mapM fun h => return (← level h).noGoods
  let b ← get
  let (plan, noGoods) := search b.needs stages (b.sayings g.goals) (noGoods.map (·.map b.sayings))
  (handles.zip noGoods).forM fun (h, noGoods) => do
    let sets := noGoods.map fun noGood => (⟨noGood.map Saying.literal⟩ : LiteralSet)
    put h (.level { ← level h with noGoods := sets })
  return plan.map (·.map Actor.handle)

/-- The outcome with a status and a plan, no-ops included. -/
def result (handle : Handle) (status : PlanStatus) (plan : Option (List Handle)) :
    Bench PlanResult := do
  let g ← graph handle
  let arena ← arena
  let plan ← plan.mapM fun l => do
    return (← actions (← withoutNoops l)).map (·.shownStep arena)
  let noGoods ← g.levels.mapM fun h => return (← level h).noGoods.length
  return ⟨status, plan, g.levels.length - 1, g.fixedPoint, g.attempts, noGoods.foldr (· + ·) 0⟩

/-- The number of sets out of reach at the fixed point, zero before it. -/
def fixedPointNoGoods (g : GraphItem) : Bench Nat := do
  match g.fixedPoint.bind (g.levels[·]?) with
  | some h => return (← level h).noGoods.length
  | none => return 0

/-- One expansion, and one search if the goals are reachable: the outcome, unless another round is
needed. -/
def round (handle : Handle) : Bench (Option PlanResult) := do
  let g ← graph handle
  if g.budget ≠ 0 ∧ g.budget ≤ g.levels.length - 1 then
    return ← result handle .budgetExhausted none
  if !(← expand handle) then return ← result handle .unsolvable none
  let g ← graph handle
  if !g.goalsReachable then return none
  let before ← fixedPointNoGoods g
  if let some plan ← extract handle then return ← result handle .solved plan
  if g.fixedPoint.isNone || (← fixedPointNoGoods g) ≠ before then return none
  return ← result handle .unsolvable none

/-- At most `fuel` rounds, up to the first with an outcome. -/
def rounds (handle : Handle) : Nat → Bench (Option PlanResult)
  | 0 => return none
  | fuel + 1 => do
    if let some outcome ← round handle then return outcome
    rounds handle fuel

/-- The graph of the schemas and of the newest facts, from which the number of rounds is bounded. -/
def shownGraph (handle : Handle) : Bench Graph := do
  let g ← graph handle
  let arena ← arena
  let newest ← level ((← levels g).headD 0)
  let facts := (← factLayer newest.facts).1.members.map (·.shown arena)
  let schemas ← g.schemas.mapM fun h => return ⟨← action h, arena⟩
  return { schemas, levels := [{ facts := { facts } }] }

/-- Rounds up to an outcome. -/
def solve (handle : Handle) : Bench (Option PlanResult) := do
  let growth := (← shownGraph handle).growthBound
  if let some outcome ← rounds handle growth then return outcome
  rounds handle (← shownGraph handle).settlingBound

/-- The report on a graph. -/
def graphReport (handle : Handle) : Bench GraphReport := do
  let g ← graph handle
  return {
    levels := ← g.levels.mapM levelReport
    goals := g.goals.members.map (·.text (← arena))
    fixedPoint := g.fixedPoint
    schemas := ← texts g.schemas }

end Bench

end Strips
