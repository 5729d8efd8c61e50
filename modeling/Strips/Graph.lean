import Strips.Graph.Level

/-!
# Planning graphs

A planning graph is a sequence of levels. The first holds the initial facts, and each further one is
derived from the one before. When a level has the facts and the mutexes of its predecessor, the
graph has reached its fixed point and does not change any more.

## Main definitions

* `Graph.load` – start over with a problem.
* `Graph.expand` – derive the next level.
* `Graph.extract` – search for a plan that ends at the newest level.
-/

namespace Strips

/-- A planning graph and what is known about the search in it. -/
structure Graph where
  /-- Whether steps with mutually exclusive preconditions exclude each other. -/
  strict : Bool := false
  /-- The greatest number of expansions in one solution attempt; zero stands for no limit. -/
  budget : Nat := 0
  schemas : List Schema := []
  /-- The goals; the values of bound cells are put in. -/
  goals : List Literal := []
  /-- The levels, newest first. -/
  levels : List Level := []
  /-- The number of the first level that equals its predecessor. -/
  fixedPoint : Option Nat := none
  /-- Whether the newest level holds every goal without a mutex among them. -/
  goalsReachable : Bool := false
  /-- How often a plan was searched for. -/
  attempts : Nat := 0
  deriving Repr

/-- Why an operation on a graph fails. -/
inductive GraphError where
  /-- A negative number of expansions was asked for. -/
  | negativeBudget (budget : Int)
  /-- An instance, printed, stands among the schemas. -/
  | groundAction (action : String)
  /-- The goals, printed, are not ground. -/
  | openGoals (goals : String)
  /-- The initial facts, printed, are not ground. -/
  | openFacts (facts : String)
  /-- No problem was loaded yet. -/
  | notLoaded
  /-- A level differs from its predecessor although the fixed point was reached. -/
  | unstable (index fixedPoint : Nat)
  /-- The next action layer cannot be built. -/
  | layer (cause : LayerError)
  deriving DecidableEq, Repr

/-- The message about a failed operation. -/
def GraphError.message : GraphError → String
  | negativeBudget budget => s!"max_layers must be >= 0, got {budget}"
  | groundAction action => s!"Expected action schemas, got ground action {action}"
  | openGoals goals => s!"Goals must be ground: {goals}"
  | openFacts facts => s!"Initial facts must be ground: {facts}"
  | notLoaded => "Planning graph was not initialized yet"
  | unstable index fixedPoint =>
    s!"Layer #{index} differs from its predecessor although the " ++
      s!"fixed point was reached at layer #{fixedPoint}"
  | layer cause => cause.message

/-- The facts that literals without cells say, if there are no cells. -/
def factsOf? (ls : List Literal) : Option (List Fact) := ls.mapM (·.fact? .empty)

namespace Graph

/-- A graph without a problem. -/
def create (strict : Bool) (budget : Int) : Except GraphError Graph :=
  if budget < 0 then .error (.negativeBudget budget)
  else .ok { strict, budget := budget.toNat }

/-- The number of expansions so far. -/
def layersBuilt (g : Graph) : Nat := g.levels.length - 1

/-- A level by its number, counted from the initial one. -/
def level? (g : Graph) (index : Nat) : Option Level := g.levels.reverse[index]?

/-- The goals, if they are ground. -/
def goalFacts? (g : Graph) : Option (List Fact) := factsOf? g.goals

/-- Start over with a problem. The literals have the values of their bound cells put in. A failure
leaves the levels as they were, but schemas and goals that were accepted before it are kept. -/
def load (g : Graph) (schemas : List Schema) (initial goals : List Literal) :
    Except GraphError Unit × Graph :=
  let g := { g with schemas }
  match schemas.find? Schema.isInstance with
  | some s => (.error (.groundAction s.text), g)
  | none =>
    let goals := LiteralSet.ofList .empty goals
    let g := { g with goals := goals.members }
    if !goals.isGround .empty then (.error (.openGoals (goals.text .empty)), g)
    else
      let initial := LiteralSet.ofList .empty initial
      match factsOf? initial.members with
      | none => (.error (.openFacts (initial.text .empty)), g)
      | some facts =>
        (.ok (), { g with
          levels := [{ facts := .ofList facts }]
          fixedPoint := none
          goalsReachable := false
          attempts := 0 })

/-- Whether the newest level holds every goal without a mutex among them. -/
def isGoalReachable (g : Graph) : Except GraphError Bool :=
  if g.levels.isEmpty then .error .notLoaded else .ok g.goalsReachable

/-- Whether a fact layer holds every goal without a mutex among them; goals that are not ground are
in no layer. -/
def reaches (g : Graph) (layer : FactLayer) : Bool :=
  match g.goalFacts? with
  | some goals => layer.supports goals
  | none => false

/-- The level after the newest one. -/
def nextLevel (g : Graph) (newest : Level) : Except LayerError Level :=
  (newest.facts.buildActions g.schemas g.strict []).map fun (actions, _) =>
    let (facts, support) := actions.buildFacts []
    { facts, actions := some actions, support }

/-- Derive the next level. The answer is `false` when the graph cannot usefully grow any more: its
fixed point is reached and the goals are still not reachable. -/
def expand (g : Graph) : Except GraphError Bool × Graph :=
  match g.levels with
  | [] => (.error .notLoaded, g)
  | newest :: _ =>
    match g.nextLevel newest with
    | .error e => (.error (.layer e), g)
    | .ok level =>
      let index := g.levels.length
      let g := { g with levels := level :: g.levels }
      let stable := newest.facts.same level.facts
      match stable, g.fixedPoint with
      | false, some fixedPoint => (.error (.unstable index fixedPoint), g)
      | _, _ =>
        let fixedPoint := g.fixedPoint.or (if stable then some index else none)
        let goalsReachable := g.reaches level.facts
        (.ok (goalsReachable || fixedPoint.isNone), { g with fixedPoint, goalsReachable })

/-- The no-goods of the levels, newest first. -/
def noGoods (g : Graph) : NoGoods Fact := g.levels.map Level.noGoods

/-- Search for a plan that ends at the newest level, no-ops included. -/
def extract (g : Graph) : Except GraphError (Option (List Step)) × Graph :=
  if g.levels.isEmpty then (.error .notLoaded, g)
  else if !g.goalsReachable then (.ok none, g)
  else
    let g := { g with attempts := g.attempts + 1 }
    match g.goalFacts? with
    | none => (.ok none, g)
    | some goals =>
      let (plan, noGoods) :=
        search Step.preconditions (g.levels.map Level.stage) goals g.noGoods
      let levels := g.levels.zipWith (fun level noGoods => { level with noGoods }) noGoods
      (.ok plan, { g with levels })

/-- The number of no-goods at the fixed point, zero before it. -/
def fixedPointNoGoods (g : Graph) : Nat :=
  ((g.fixedPoint.bind g.level?).map (·.noGoods.length)).getD 0

/-- The number of no-goods at all levels. -/
def noGoodCount (g : Graph) : Nat := (g.levels.map (·.noGoods.length)).foldr (· + ·) 0

end Graph

end Strips
