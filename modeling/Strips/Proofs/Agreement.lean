import Strips.Proofs.Soundness
import Strips.Proofs.Termination
import Strips.Proofs.Unsolvability
import Strips.Session

/-!
# Results against shortest plans

A result can be compared with the answer of a search for shortest plans. A plan that was found is
one of the plans of the problem, so it is not shorter than a shortest one; and where the attempt
ended as unsolvable there is none.

An attempt that was cut short by its limit says neither. It only tells that every plan takes more
steps than there were levels built. The comparison nevertheless reads it as a denial, and so it
speaks against the attempt exactly if the problem has a plan.

## Main definitions

* `Problem.IsPlan`, `Problem.IsShortestAnswer` – the plans of a problem, and the answer about them.
* `PlanResult.RightAbout` – what a result tells about the plans.

## Main results

* `Problem.exists_rightAbout` – every attempt ends with a result that is right.
* `Problem.isAgreement_iff` – when a comparison finds nothing against it.
-/

namespace Strips

namespace Problem

/-- The given instances run from the initial facts to a state in which all goals are true. -/
structure IsPlan (p : Problem) (plan : List Step) : Prop where
  instances : ∀ t ∈ plan, p.IsInstance t
  achieves : State.achieves p.initial (plan.map .step) p.goals = true

/-- The right answer to the question for a shortest plan. The names in it may be those of another
language, so only their number counts. -/
def IsShortestAnswer (p : Problem) : Option (List String) → Prop
  | none => ∀ plan, ¬ p.IsPlan plan
  | some calls => (∃ plan, p.IsPlan plan ∧ plan.length = calls.length) ∧
      ∀ plan, p.IsPlan plan → calls.length ≤ plan.length

variable {p : Problem}

/-- A plan reaches the goals in parallel steps, as many as it has steps or more. -/
theorem IsPlan.exists_reachableIn {plan : List Step} (h : p.IsPlan plan) {count : Nat}
    (hle : plan.length ≤ count) :
    ∃ state, p.ReachableIn count state ∧ ∀ f ∈ p.goals, f ∈ state := by
  obtain ⟨state, hstate, hgoals⟩ := exists_reachableIn_of_achieves h.instances h.achieves
  exact ⟨state, hstate.mono hle, hgoals⟩

end Problem

/-- What a result tells about the plans of a problem. -/
def PlanResult.RightAbout (r : PlanResult) (p : Problem) : Prop :=
  match r.status with
  | .solved => ∃ plan, r.plan = some plan ∧ p.IsPlan plan
  | .unsolvable => ∀ plan, ¬ p.IsPlan plan
  | .budgetExhausted => ∀ plan, p.IsPlan plan → r.layersBuilt < plan.length

namespace Graph

/-- The result of the last round is right. -/
theorem RoundEnds.rightAbout {p : Problem} (hreg : ∀ s ∈ p.schemas, s.Regular)
    (hd : p.ReservesDistinct) {before after : Graph}
    (h : before.Explored p (Problem.eachOnce p.goals) 0) {r : PlanResult}
    (hends : before.RoundEnds (.done r) after) : r.RightAbout p := by
  -- goals that are never reached together leave no plan
  have hdenied : (∀ count state, p.ReachableIn count state →
      ∃ f ∈ Problem.eachOnce p.goals, f ∉ state) → ∀ plan, ¬ p.IsPlan plan := by
    intro hnever plan hplan
    obtain ⟨state, hstate, hgoals⟩ := hplan.exists_reachableIn le_rfl
    obtain ⟨f, hf, hno⟩ := hnever _ state hstate
    exact hno (hgoals f (Problem.mem_eachOnce.1 hf))
  cases hends with
  | exhausted hbudget hle =>
    intro plan hplan
    show before.layersBuilt < plan.length
    have hlevels := List.length_pos_of_ne_nil h.ladder.ne_nil
    by_contra! hshort
    rw [layersBuilt] at hle hshort
    obtain ⟨state, hstate, hgoals⟩ := hplan.exists_reachableIn hshort
    obtain ⟨f, hf, hno⟩ := h.exists_not_mem hreg (by omega) (by omega) hstate
    exact hno (hgoals f (Problem.mem_eachOnce.1 hf))
  | closed hexpand =>
    obtain ⟨hexplored, _, _, level, -, -, -, hlevels, -, hsupports, -, hgrew⟩ := h.expand hexpand
    obtain ⟨hunreached, hsome⟩ := Bool.or_eq_false_iff.1 hgrew.symm
    obtain ⟨number, hnumber⟩ := Option.ne_none_iff_exists'.1
      (fun hnone => Bool.eq_false_iff.1 hsome (Option.isNone_iff_eq_none.2 hnone))
    exact hdenied fun count state hstate =>
      hexplored.exists_not_mem_of_closed hreg hlevels (hsupports ▸ hunreached) hnumber hstate
  | @found g' _ plan hexpand hreach hextract =>
    have hexplored := (h.expand hexpand).1
    obtain ⟨hsteps, last, hrun, hlast⟩ := hexplored.ladder.exists_run hreg hd
      (search_solves (hexplored.extract hreach hextract).1.symm)
    have hgoals : ∀ f ∈ p.goals, f ∈ last := fun f hf => hlast f (Problem.mem_eachOnce.2 hf)
    exact ⟨withoutNoops plan, rfl, fun t ht => (hsteps t ht).2,
      State.achieves_iff.2 ⟨last, hrun, hgoals⟩⟩
  | settled hexpand hreach hextract hfixed hsame =>
    exact hdenied fun count state hstate =>
      (h.expand hexpand).1.exists_not_mem_of_settled hreg hreach hextract hfixed hsame hstate

end Graph

namespace Problem

variable {p : Problem} {text : String}

theorem round_solve {strict : Bool} {budget : Nat} {g : Graph}
    (hg : p.graph strict budget = .ok g) :
    (p.solve strict budget).round = g.solve.1 := by
  rw [solve, hg]

/-- **Every attempt ends with a result that is right.** -/
theorem exists_rightAbout (hp : parse text = .ok p) (hd : p.ReservesDistinct) (strict : Bool)
    (budget : Nat) : ∃ r, (p.solve strict budget).round = .done r ∧ r.RightAbout p := by
  have hreg := regular_of_parse hp
  obtain ⟨g, hg⟩ : ∃ g, p.graph strict budget = .ok g := by
    rw [graph_eq hreg, if_neg (by omega)]
    exact ⟨_, rfl⟩
  obtain ⟨r, hr⟩ := exists_done hreg hd hg
  obtain ⟨before, after, hbefore, hends⟩ := exists_of_solve hreg hg hr
  exact ⟨r, (round_solve hg).trans hr, hends.rightAbout hreg hd hbefore⟩

/-- The right answer is none exactly if there is no plan. -/
theorem IsShortestAnswer.isNone_iff {reference : Option (List String)}
    (h : p.IsShortestAnswer reference) : reference.isNone = true ↔ ∀ plan, ¬ p.IsPlan plan := by
  cases reference with
  | none => exact iff_of_true rfl h
  | some calls =>
    obtain ⟨⟨plan, hplan, -⟩, -⟩ := h
    exact iff_of_false Bool.false_ne_true fun hnone => hnone plan hplan

end Problem

namespace Verdict

variable {p : Problem} {r : PlanResult} {reference : Option (List String)}

/-- Without a plan a result agrees with the answer that there is none. -/
theorem agrees_of_ne_solved (hstatus : r.status ≠ .solved) :
    agrees r reference = reference.isNone := by
  cases hcase : r.status with
  | solved => exact absurd hcase hstatus
  | unsolvable => simp [agrees, hcase]
  | budgetExhausted => simp [agrees, hcase]

/-- A result that is right agrees with the right answer, unless it is about an attempt that was cut
short although there is a plan. -/
theorem agrees_iff (hright : r.RightAbout p) (hreference : p.IsShortestAnswer reference) :
    agrees r reference = true ↔ ¬(r.status = .budgetExhausted ∧ ∃ plan, p.IsPlan plan) := by
  rw [PlanResult.RightAbout] at hright
  cases hstatus : r.status with
  | solved =>
    rw [hstatus] at hright
    obtain ⟨plan, hplan, hisPlan⟩ := hright
    cases reference with
    | none => exact absurd hisPlan (hreference plan)
    | some calls =>
      have hle : calls.length ≤ plan.length := hreference.2 plan hisPlan
      simp [agrees, hstatus, hplan, hle]
  | unsolvable =>
    rw [hstatus] at hright
    rw [agrees_of_ne_solved (by simp [hstatus]), hreference.isNone_iff]
    simpa using hright
  | budgetExhausted =>
    rw [agrees_of_ne_solved (by simp [hstatus]), hreference.isNone_iff]
    simp

end Verdict

namespace Problem

/-- **A comparison with a shortest plan finds nothing against a result**, unless the attempt was cut
short although the problem has a plan. -/
theorem isAgreement_iff (hp : parse text = .ok p) (hsupports : Pddl.supports p.schemas = true)
    (hd : p.ReservesDistinct) (strict : Bool) (budget : Nat) {reference : Option (List String)}
    (hreference : p.IsShortestAnswer reference) :
    ∃ r, (p.solve strict budget).round = .done r ∧
      ((Verdict.of p.schemas r (.ok reference)).isAgreement = true ↔
        ¬(r.status = .budgetExhausted ∧ ∃ plan, p.IsPlan plan)) := by
  obtain ⟨r, hr, hright⟩ := exists_rightAbout hp hd strict budget
  refine ⟨r, hr, ?_⟩
  rw [Verdict.of, hsupports, ← Verdict.agrees_iff hright hreference]
  rfl

/-- Who is asleep has to wake before rising. -/
def risingText : String :=
  "wake :: asleep => not asleep, awake. rise :: awake => up. asleep. goal up."

/-- Without a limit a plan of two steps is found, but one level is too few for it. -/
theorem rises (strict : Bool) : ∃ p, parse risingText = .ok p ∧
    Pddl.supports p.schemas = true ∧ p.ReservesDistinct ∧
    (∃ r plan, (p.solve strict 0).round = .done r ∧ r.status = .solved ∧ r.plan = some plan ∧
      plan.length = 2) ∧
    ∃ r, (p.solve strict 1).round = .done r ∧ r.status = .budgetExhausted ∧ r.layersBuilt = 1 := by
  have hread : (parse risingText).toOption.any
      (fun p => Pddl.supports p.schemas && decide p.ReservesDistinct) = true := by decide +kernel
  have hfound : (outcome? risingText strict 0).map (fun r => (r.status, r.plan.map List.length)) =
      some (.solved, some 2) := by cases strict <;> decide +kernel
  have hcut : (outcome? risingText strict 1).map (fun r => (r.status, r.layersBuilt)) =
      some (.budgetExhausted, 1) := by cases strict <;> decide +kernel
  obtain ⟨r, hr, hfound⟩ := Option.map_eq_some_iff.1 hfound
  obtain ⟨r', hr', hcut⟩ := Option.map_eq_some_iff.1 hcut
  obtain ⟨p, g, hp, hg, hsolve⟩ := exists_of_outcome?_eq_some hr
  obtain ⟨p', g', hp', hg', hsolve'⟩ := exists_of_outcome?_eq_some hr'
  obtain rfl := Except.ok.inj (hp.symm.trans hp')
  rw [hp] at hread
  obtain ⟨hsupports, hd⟩ := Bool.and_eq_true_iff.1 hread
  obtain ⟨hstatus, hlength⟩ := Prod.mk.inj hfound
  obtain ⟨plan, hplan, hlength⟩ := Option.map_eq_some_iff.1 hlength
  obtain ⟨hstatus', hbuilt⟩ := Prod.mk.inj hcut
  exact ⟨p, hp, hsupports, of_decide_eq_true hd,
    ⟨r, plan, (round_solve hg).trans hsolve, hstatus, hplan, hlength⟩,
    r', (round_solve hg').trans hsolve', hstatus', hbuilt⟩

/-- Two steps are the least. -/
theorem isShortestAnswer_rising (hp : parse risingText = .ok p) :
    p.IsShortestAnswer (some ["wake", "rise"]) := by
  obtain ⟨p', hp', -, hd, ⟨r, plan, hr, hstatus, hplan, hlength⟩, r', hr', hstatus', hbuilt⟩ :=
    rises true
  obtain rfl := Except.ok.inj (hp.symm.trans hp')
  obtain ⟨s, hs, hright⟩ := exists_rightAbout hp hd true 0
  obtain ⟨s', hs', hright'⟩ := exists_rightAbout hp hd true 1
  obtain rfl := Graph.Round.done.inj (hr.symm.trans hs)
  obtain rfl := Graph.Round.done.inj (hr'.symm.trans hs')
  rw [PlanResult.RightAbout, hstatus] at hright
  rw [PlanResult.RightAbout, hstatus'] at hright'
  obtain ⟨plan', hplan', hisPlan⟩ := hright
  obtain rfl := Option.some.inj (hplan.symm.trans hplan')
  refine ⟨⟨plan, hisPlan, hlength⟩, fun other hother => ?_⟩
  have hlong := hright' other hother
  rwa [hbuilt] at hlong

/-- Without a limit nothing speaks against the plan that is found. -/
theorem isAgreement_rising : ∃ p r, parse risingText = .ok p ∧ Pddl.supports p.schemas = true ∧
    p.ReservesDistinct ∧ p.IsShortestAnswer (some ["wake", "rise"]) ∧
    (p.solve true 0).round = .done r ∧ r.status = .solved ∧
    (Verdict.of p.schemas r (.ok (some ["wake", "rise"]))).isAgreement = true := by
  obtain ⟨p, hp, hsupports, hd, ⟨r, -, hr, hstatus, -, -⟩, -⟩ := rises true
  have hreference := isShortestAnswer_rising hp
  obtain ⟨s, hs, hiff⟩ := isAgreement_iff hp hsupports hd true 0 hreference
  obtain rfl := Graph.Round.done.inj (hr.symm.trans hs)
  refine ⟨p, r, hp, hsupports, hd, hreference, hr, hstatus, hiff.2 fun hexhausted => ?_⟩
  rw [hstatus] at hexhausted
  cases hexhausted.1

/-- With a limit of one level the attempt is cut short, and the comparison speaks against it. -/
theorem not_isAgreement_rising : ∃ p r, parse risingText = .ok p ∧
    Pddl.supports p.schemas = true ∧ p.ReservesDistinct ∧
    p.IsShortestAnswer (some ["wake", "rise"]) ∧ (p.solve false 1).round = .done r ∧
    r.status = .budgetExhausted ∧
    (Verdict.of p.schemas r (.ok (some ["wake", "rise"]))).isAgreement = false := by
  obtain ⟨p, hp, hsupports, hd, -, r, hr, hstatus, -⟩ := rises false
  refine ⟨p, r, hp, hsupports, hd, isShortestAnswer_rising hp, hr, hstatus, ?_⟩
  rw [Verdict.of, hsupports]
  exact Verdict.agrees_of_ne_solved (by simp [hstatus])

end Problem

end Strips
