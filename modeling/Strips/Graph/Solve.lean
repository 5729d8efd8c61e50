import Strips.Graph

/-!
# Solving

A graph is expanded until its goals are reachable; then a plan is searched for, and if there is none
the graph is expanded further. The attempt ends without a plan when the goals are not reachable at
the fixed point, or when a search there has recorded no new no-good at the level of the fixed point,
because then no later level can give a plan either.

The number of rounds is bounded beforehand. Up to the fixed point each round adds a fact or removes
a mutex, so the square of the number of possible facts bounds them; from then on each round records
a set of facts at one level that contains no recorded one, so the number of sets of its facts does.

## Main definitions

* `Graph.round` – one expansion, and one search if the goals are reachable.
* `Graph.solve` – rounds up to a decision.
-/

namespace Strips

/-- How an attempt to solve ends. -/
inductive PlanStatus where
  | solved
  | unsolvable
  | budgetExhausted
  deriving DecidableEq, Repr

/-- The name of an outcome. -/
def PlanStatus.text : PlanStatus → String
  | solved => "solved"
  | unsolvable => "unsolvable"
  | budgetExhausted => "budget_exhausted"

/-- The outcome of an attempt to solve. -/
structure PlanResult where
  status : PlanStatus
  /-- The plan without no-ops. -/
  plan : Option (List Step)
  layersBuilt : Nat
  fixedPoint : Option Nat
  attempts : Nat
  noGoods : Nat
  deriving Repr

/-- What is reported while a graph is solved. -/
inductive Progress where
  | layerBuilt (index actions actionMutexes facts factMutexes : Nat)
  | fixedPointReached (index : Nat)
  | goalsReachable
  | budgetExhausted (budget : Nat)
  | planFound
  | beforeFixedPoint
  | newNoGood
  | finished
  deriving DecidableEq, Repr

/-- The reported line. -/
def Progress.message : Progress → String
  | layerBuilt index actions actionMutexes facts factMutexes =>
    s!"[GraphPlan] Layer #{index} built: {actions} actions, " ++
      s!"{actionMutexes} action mutexes, {facts} facts, {factMutexes} fact mutexes"
  | fixedPointReached index => s!"[GraphPlan] Fixed point reached at layer #{index}"
  | goalsReachable =>
    "[GraphPlan] All goals are contained in the fact layer and there are no mutexes among them"
  | budgetExhausted budget => s!"[GraphPlan] Layer budget of {budget} exhausted"
  | planFound => "[GraphPlan] Serial plan was found"
  | beforeFixedPoint => "[GraphPlan] Fixed point not reached yet - resuming"
  | newNoGood => "[GraphPlan] New no-good found at fixed point - resuming"
  | finished => "[GraphPlan] Termination condition reached"

/-- The steps that are no no-ops. -/
def withoutNoops (steps : List Step) : List Step := steps.filter fun s => !s.noop

namespace Graph

/-- The outcome with a status and a plan, no-ops included. -/
def result (g : Graph) (status : PlanStatus) (plan : Option (List Step)) : PlanResult :=
  ⟨status, plan.map withoutNoops, g.layersBuilt, g.fixedPoint, g.attempts, g.noGoodCount⟩

/-- What is reported about an expansion from `before` to `after`. -/
def growth (before after : Graph) : List Progress :=
  match after.levels with
  | [] => []
  | level :: earlier =>
    [.layerBuilt earlier.length level.actionCount level.actionMutexCount
      level.facts.facts.length level.facts.mutexes.size] ++
    (match before.fixedPoint, after.fixedPoint with
      | none, some index => [.fixedPointReached index]
      | _, _ => []) ++
    (if after.goalsReachable then [.goalsReachable] else [])

/-- The end of one round. -/
inductive Round where
  /-- The attempt is decided. -/
  | done (result : PlanResult)
  /-- Another round is needed. -/
  | again
  /-- The graph cannot be expanded. -/
  | failed (error : GraphError)
  deriving Repr

/-- One expansion, and one search if the goals are reachable; with what is reported and the new
graph. -/
def round (g : Graph) : Round × List Progress × Graph :=
  if g.budget ≠ 0 ∧ g.budget ≤ g.layersBuilt then
    (.done (g.result .budgetExhausted none), [.budgetExhausted g.budget], g)
  else match g.expand with
    | (.error e, g') => (.failed e, [], g')
    | (.ok grew, g') =>
      let report := g.growth g'
      let unsolvable := fun (g : Graph) =>
        (Round.done (g.result .unsolvable none), report ++ [.finished], g)
      if !grew then unsolvable g'
      else if !g'.goalsReachable then (.again, report, g')
      else match g'.extract with
        | (.error e, g'') => (.failed e, report, g'')
        | (.ok (some plan), g'') =>
          (.done (g''.result .solved (some plan)), report ++ [.planFound], g'')
        | (.ok none, g'') =>
          if g''.fixedPoint.isNone then (.again, report ++ [.beforeFixedPoint], g'')
          else if g''.fixedPointNoGoods ≠ g'.fixedPointNoGoods then
            (.again, report ++ [.newNoGood], g'')
          else unsolvable g''

/-- At most `fuel` rounds, up to the first that is not to be followed by another. -/
def rounds : Nat → Graph → Round × List Progress × Graph
  | 0, g => (.again, [], g)
  | fuel + 1, g =>
    match g.round with
    | (.again, report, g) =>
      let (last, further, g) := rounds fuel g
      (last, report ++ further, g)
    | other => other

/-! ### The number of rounds -/

/-- The values of constant terms of a literal. -/
def constantsOf (arena : Arena) (l : Literal) : List String :=
  l.terms.filterMap fun t => if t.isConstant arena then t.value? arena else none

/-- A bound on the number of facts that any level can hold: those of the newest level, and what the
effects of the schemas say under all assignments of the constants that occur. -/
def factBound (g : Graph) : Nat :=
  let facts := (g.levels.head?.map (·.facts.facts)).getD []
  let effects := g.schemas.flatMap fun s => s.action.positive.members
  let constants := facts.flatMap Fact.arguments ++ g.schemas.flatMap fun s =>
    (s.action.preconditions.members ++ s.action.positive.members).flatMap (constantsOf s.arena)
  let assignments := effects.map fun l => Nat.pow constants.eraseDups.length l.arity
  facts.length + assignments.foldr (· + ·) 0

/-- A bound on the number of rounds up to the fixed point. -/
def growthBound (g : Graph) : Nat := g.factBound * g.factBound + g.factBound + 2

/-- A bound on the number of rounds from the fixed point on. -/
def settlingBound (g : Graph) : Nat :=
  Nat.pow 2 ((g.levels.head?.map (·.facts.facts.length)).getD 0) + 2

/-- Rounds up to a decision. `Round.again` is never the end. -/
def solve (g : Graph) : Round × List Progress × Graph :=
  if g.levels.isEmpty then (.failed .notLoaded, [], g)
  else match g.rounds g.growthBound with
    | (.again, report, g) =>
      let (last, further, g) := g.rounds g.settlingBound
      (last, report ++ further, g)
    | other => other

end Graph

end Strips
