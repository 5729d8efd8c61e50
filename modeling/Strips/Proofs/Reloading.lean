import Strips.Proofs.Consistency

/-!
# Loading that fails

A problem is loaded in three parts: schemas, goals and initial facts. Each part is checked by
itself, but the schemas are kept before they are checked, and so are the goals, while the rest of
the graph only changes once all three have passed.

A failure therefore leaves a graph with its old levels and with schemas and goals that need not be
those of the levels. It goes unnoticed exactly if they happen to be the same. Nothing else is left
of it: as soon as some problem is loaded, it is as if the failure had not been.

## Main definitions

* `Graph.Request`, `Graph.respond` – what can be asked of a graph.
* `Graph.Indistinguishable` – graphs that show the same and give the same answers for good.

## Main results

* `Graph.load_eq_error` – what a failure leaves.
* `Graph.load_failure` – when it goes unnoticed.
-/

namespace Strips

namespace Graph

/-! ### What can be observed -/

/-- A request to a graph. -/
inductive Request where
  | expand
  | extract
  | solve
  deriving DecidableEq, Repr

/-- The answer to a request. -/
inductive Answer where
  | grew (answer : Except GraphError Bool)
  | plan (answer : Except GraphError (Option (List Step)))
  | outcome (round : Round) (report : List Progress)

/-- The answer to a request, and the graph after it. -/
def respond (g : Graph) : Request → Answer × Graph
  | .expand => (.grew g.expand.1, g.expand.2)
  | .extract => (.plan g.extract.1, g.extract.2)
  | .solve => (.outcome g.solve.1 g.solve.2.1, g.solve.2.2)

/-- What a graph shows without being changed. -/
structure View where
  schemas : List Schema
  goals : List Literal
  levels : List Level
  fixedPoint : Option Nat
  goalReachable : Except GraphError Bool

/-- What a graph shows. -/
def view (g : Graph) : View := ⟨g.schemas, g.goals, g.levels, g.fixedPoint, g.isGoalReachable⟩

/-- The answers to requests, one after the other, and what the graph shows after each of them. -/
def transcript (g : Graph) : List Request → List (Answer × View)
  | [] => []
  | request :: later =>
    let (answer, g') := g.respond request
    (answer, g'.view) :: g'.transcript later

/-- The graphs show the same, and whatever is asked of them, they go on to give the same answers and
to show the same. -/
def Indistinguishable (g g' : Graph) : Prop :=
  g.view = g'.view ∧ ∀ requests, g.transcript requests = g'.transcript requests

theorem Indistinguishable.refl (g : Graph) : g.Indistinguishable g := ⟨rfl, fun _ => rfl⟩

/-! ### What loading does -/

/-- The checks of a problem, which do not look at the graph: its initial facts if it passes them. -/
def checkedFacts (schemas : List Schema) (initial goals : List Literal) :
    Except GraphError (List Fact) :=
  match schemas.find? Schema.isInstance with
  | some s => .error (.groundAction s.text)
  | none =>
    let goals := LiteralSet.ofList .empty goals
    let initial := LiteralSet.ofList .empty initial
    if !goals.isGround .empty then .error (.openGoals (goals.text .empty))
    else match factsOf? initial.members with
      | none => .error (.openFacts (initial.text .empty))
      | some facts => .ok facts

/-- The goals after a failure: the new ones, unless a schema was refused. -/
def goalsKept (g : Graph) (schemas : List Schema) (goals : List Literal) : List Literal :=
  if schemas.any Schema.isInstance then g.goals else (LiteralSet.ofList .empty goals).members

variable {g g' : Graph} {schemas : List Schema} {initial goals : List Literal}

/-- **A failure replaces schemas and goals only.** A success leaves nothing but limit and mode. -/
theorem load_eq (g : Graph) (schemas : List Schema) (initial goals : List Literal) :
    g.load schemas initial goals = match checkedFacts schemas initial goals with
      | .error e => (.error e, { g with schemas, goals := g.goalsKept schemas goals })
      | .ok facts => (.ok (), {
          strict := g.strict
          budget := g.budget
          schemas
          goals := (LiteralSet.ofList .empty goals).members
          levels := [{ facts := .ofList facts }] }) := by
  rw [load, checkedFacts, goalsKept]
  cases hfound : schemas.find? Schema.isInstance with
  | some s =>
    rw [if_pos (List.any_eq_true.2 ⟨s, List.mem_of_find?_eq_some hfound, List.find?_some hfound⟩)]
  | none =>
    have hany : ¬ schemas.any Schema.isInstance = true := by simpa using hfound
    rw [if_neg hany]
    dsimp only
    split
    · rfl
    · cases factsOf? (LiteralSet.ofList .empty initial).members <;> rfl

theorem load_eq_error {e : GraphError} (h : g.load schemas initial goals = (.error e, g')) :
    g' = { g with schemas, goals := g.goalsKept schemas goals } := by
  rw [load_eq] at h
  split at h
  · exact (Prod.mk.inj h).2.symm
  · cases (Prod.mk.inj h).1

/-- Graphs with the same limit and mode are the same after a problem was loaded on them. -/
theorem load_eq_load (hstrict : g'.strict = g.strict) (hbudget : g'.budget = g.budget)
    (h : (g.load schemas initial goals).1 = .ok ()) :
    g'.load schemas initial goals = g.load schemas initial goals := by
  rw [load_eq] at h ⊢
  rw [load_eq]
  split
  · rename_i hcheck
    rw [hcheck] at h
    cases h
  · rw [hstrict, hbudget]

/-- **When a failure goes unnoticed**: schemas and goals have to be what they were before. All else
stays as it is in any case, and nothing of the failure is left once a problem is loaded. -/
theorem load_failure {e : GraphError} (h : g.load schemas initial goals = (.error e, g')) :
    g' = { g with schemas, goals := g.goalsKept schemas goals } ∧
    (∀ schemas initial goals, (g.load schemas initial goals).1 = .ok () →
      g'.load schemas initial goals = g.load schemas initial goals) ∧
    (g.Indistinguishable g' ↔ schemas = g.schemas ∧ g.goalsKept schemas goals = g.goals) := by
  obtain rfl := load_eq_error h
  refine ⟨rfl, fun _ _ _ hok => load_eq_load rfl rfl hok, fun hsame => ?_, ?_⟩
  · have hview := hsame.1
    exact ⟨congrArg View.schemas hview.symm, congrArg View.goals hview.symm⟩
  · rintro ⟨rfl, hgoals⟩
    rw [hgoals]
    exact .refl g

/-- One road, and its end as the goal. -/
def laneText : String := "go :: at(X), to(X,Y) => not at(X), at(Y). at(a). to(a,b). goal at(b)."

/-- A fact that leaves a place open, which no problem may start with. -/
def somewhere : Literal := ⟨"at", [.cell 0]⟩

/-- Where no road leads. -/
def elsewhere : Literal := ⟨"at", [.const "c"]⟩

/-- If the same problem is loaded again, but from an open fact, then nobody notices. -/
theorem load_failure_lane : ∃ p g₀ g g', Problem.parse laneText = .ok p ∧
    p.graph false 0 = .ok g₀ ∧ g₀.calls [.expand] = g ∧
    g.load g.schemas [somewhere] g.goals = (.error (.openFacts "at($unbound)"), g') ∧
    g.Indistinguishable g' := by
  have hload : (Problem.graphAfter? laneText false [.expand]).any (fun g =>
      decide ((g.load g.schemas [somewhere] g.goals).1 = .error (.openFacts "at($unbound)")) &&
        decide (g.goalsKept g.schemas g.goals = g.goals)) = true := by decide +kernel
  obtain ⟨g, hafter, hload⟩ := (Option.any_eq_true _ _).1 hload
  obtain ⟨p, g₀, hp, hg₀, hg⟩ := Problem.exists_of_graphAfter?_eq_some hafter
  obtain ⟨herror, hkept⟩ := Bool.and_eq_true_iff.1 hload
  have hfailure : g.load g.schemas [somewhere] g.goals = (.error (.openFacts "at($unbound)"), _) :=
    Prod.ext (of_decide_eq_true herror) rfl
  exact ⟨p, g₀, g, _, hp, hg₀, hg, hfailure,
    (load_failure hfailure).2.2.2 ⟨rfl, of_decide_eq_true hkept⟩⟩

/-- If another goal is loaded from an open fact, then the graph shows that goal and still says that
it is reachable, although the newest level does not hold it, and the plan is gone. -/
theorem load_failure_noticed : ∃ p g₀ g g' newest older plan, Problem.parse laneText = .ok p ∧
    p.graph false 0 = .ok g₀ ∧ g₀.calls [.expand] = g ∧
    g.load g.schemas [somewhere] [elsewhere] = (.error (.openFacts "at($unbound)"), g') ∧
    ¬ g.Indistinguishable g' ∧ g'.goals = [elsewhere] ∧ g'.levels = newest :: older ∧
    g'.isGoalReachable = .ok true ∧ g'.reaches newest.facts = false ∧
    g.extract.1 = .ok (some plan) ∧ g'.extract.1 = .ok none := by
  have hload : (Problem.graphAfter? laneText false [.expand]).any (fun g =>
      let (answer, g') := g.load g.schemas [somewhere] [elsewhere]
      decide (answer = .error (.openFacts "at($unbound)")) && decide (g'.goals = [elsewhere]) &&
        decide (g.goals ≠ [elsewhere]) && decide (g'.isGoalReachable = .ok true) &&
        (g'.levels.head?.any fun newest => !g'.reaches newest.facts) &&
        (g.extract.1.toOption.join).isSome && decide (g'.extract.1 = .ok none)) = true := by
    decide +kernel
  obtain ⟨g, hafter, hload⟩ := (Option.any_eq_true _ _).1 hload
  obtain ⟨p, g₀, hp, hg₀, hg⟩ := Problem.exists_of_graphAfter?_eq_some hafter
  rcases hanswer : g.load g.schemas [somewhere] [elsewhere] with ⟨answer, g'⟩
  simp only [hanswer, Bool.and_eq_true, decide_eq_true_eq, Option.any_eq_true, and_assoc] at hload
  obtain ⟨rfl, hgoals, hne, hreachable, ⟨newest, hnewest, hno⟩, hplan, hnone⟩ := hload
  obtain ⟨older, holder⟩ := List.head?_eq_some_iff.1 hnewest
  obtain ⟨plan, hplan⟩ := Option.isSome_iff_exists.1 hplan
  have hfound : g.extract.1 = .ok (some plan) :=
    eq_ok_of_toOption_eq_some (Option.join_eq_some_iff.1 hplan)
  have hnoticed : ¬ g.Indistinguishable g' := fun hsame =>
    hne ((congrArg View.goals hsame.1).trans hgoals)
  exact ⟨p, g₀, g, g', newest, older, plan, hp, hg₀, hg, hanswer, hnoticed, hgoals, holder,
    hreachable, by simpa using hno, hfound, hnone⟩

end Graph

end Strips
