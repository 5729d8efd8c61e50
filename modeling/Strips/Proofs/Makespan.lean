import Strips.Proofs.Exploration

/-!
# Plans are shortest

A plan is found at the first level at which there is one. In fewer parallel steps than there are
levels above the initial one the goals cannot be reached, with the one exception of no step at all:
the search begins at the first level, so that goals which are true from the start have a plan with
one level and no action.

## Main results

* `Graph.not_reachableIn_of_solved` – no smaller number of parallel steps reaches the goals.
-/

namespace Strips

namespace Graph

/-- **No smaller number of parallel steps reaches the goals** than the number of levels that were
built for a plan, and every serial plan has at least as many actions if there is more than one. -/
theorem not_reachableIn_of_solved {text : String} {p : Problem} (hp : Problem.parse text = .ok p)
    {strict : Bool} {budget : Int} {g : Graph} (hg : p.graph strict budget = .ok g) {r : PlanResult}
    (hsolve : g.solve.1 = .done r) (hstatus : r.status = .solved) :
    (∀ count, 1 ≤ count → count < r.layersBuilt → ∀ state, p.ReachableIn count state →
      ∃ goal ∈ p.goals, goal ∉ state) ∧
    (1 < r.layersBuilt → ∀ plan : List Step, (∀ t ∈ plan, p.IsInstance t) →
      State.achieves p.initial (plan.map .step) p.goals = true → r.layersBuilt ≤ plan.length) := by
  have hreg := Problem.regular_of_parse hp
  obtain ⟨before, after, hbefore, hends⟩ := Problem.exists_of_solve hreg hg hsolve
  have hshort : ∀ count, 1 ≤ count → count < r.layersBuilt → ∀ state,
      p.ReachableIn count state → ∃ goal ∈ p.goals, goal ∉ state := by
    intro count hpos hlt state hstate
    cases hends with
    | exhausted => cases hstatus
    | closed => cases hstatus
    | settled => cases hstatus
    | @found g' _ plan hexpand hreach hextract =>
      have hexplored := (hbefore.expand hexpand).1
      -- the search changes no-goods only, so the levels are as many as after the expansion
      have hlength := (hexplored.keeps_of_extract hreach hextract).2
      change count < after.levels.length - 1 at hlt
      obtain ⟨goal, hgoal, hno⟩ := hexplored.exists_not_mem hreg hpos (by omega) hstate
      exact ⟨goal, Problem.mem_eachOnce.1 hgoal, hno⟩
  refine ⟨hshort, fun hlayers plan hplan hachieves => ?_⟩
  obtain ⟨last, hlast, hgoals⟩ := Problem.exists_reachableIn_of_achieves hplan hachieves
  by_contra hlt
  -- a plan without actions is no shorter than one parallel step that takes nothing
  have hlast' := hlast.mono (Nat.le_max_left plan.length 1)
  obtain ⟨goal, hgoal, hno⟩ := hshort _ (Nat.le_max_right _ _) (by omega) last hlast'
  exact hno (hgoals goal hgoal)

/-- A road with four places, and the last of them as the goal. -/
def roadText : String :=
  "go :: at(X), to(X,Y) => not at(X), at(Y). at(a). to(a,b). to(b,c). to(c,d). goal at(d)."

/-- The end of the road takes three levels, and so no plan has fewer than three actions. -/
theorem not_reachableIn_road : ∃ p g r, Problem.parse roadText = .ok p ∧
    p.graph false 0 = .ok g ∧ g.solve.1 = .done r ∧ r.status = .solved ∧ r.layersBuilt = 3 ∧
    (∀ count, 1 ≤ count → count < r.layersBuilt → ∀ state, p.ReachableIn count state →
      ∃ goal ∈ p.goals, goal ∉ state) ∧
    (1 < r.layersBuilt → ∀ plan : List Step, (∀ t ∈ plan, p.IsInstance t) →
      State.achieves p.initial (plan.map .step) p.goals = true → r.layersBuilt ≤ plan.length) := by
  have hdecision : (Problem.outcome? roadText false 0).map (fun r => (r.status, r.layersBuilt)) =
      some (.solved, 3) := by decide +kernel
  obtain ⟨r, hr, hpair⟩ := Option.map_eq_some_iff.1 hdecision
  obtain ⟨hstatus, hlayers⟩ := Prod.mk.inj hpair
  obtain ⟨p, g, hp, hg, hsolve⟩ := Problem.exists_of_outcome?_eq_some hr
  exact ⟨p, g, r, hp, hg, hsolve, hstatus, hlayers, not_reachableIn_of_solved hp hg hsolve hstatus⟩

end Graph

end Strips
