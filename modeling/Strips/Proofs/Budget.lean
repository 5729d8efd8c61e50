import Strips.Proofs.Termination

/-!
# What a limit changes

An attempt to solve can be given a limit on the number of levels. The limit is looked at before each
round and nowhere else, so below it the rounds are those of the attempt without a limit, and at it
the attempt ends without an answer. The last level that the limit allows is still searched.

## Main definitions

* `Graph.withBudget` – a graph with another limit.
* `PlanResult.CutAt` – how the outcome with a limit is related to the one without.

## Main results

* `Graph.round_withBudget` – a round below the limit.
* `Graph.Explored.exists_cut` – the rounds up to a decision.
* `Graph.budget_only_cuts` – a limit only cuts an attempt short.
-/

namespace Strips

open Relation

/-- The outcome with a limit, given the one without: the same if the limit is not less than the
number of levels that were built, and none otherwise. -/
structure PlanResult.CutAt (r : PlanResult) (budget : Nat) (cut : PlanResult) : Prop where
  kept : r.layersBuilt ≤ budget → cut = r
  exhausted : budget < r.layersBuilt →
    cut.status = .budgetExhausted ∧ cut.plan = none ∧ cut.layersBuilt = budget

namespace Graph

/-- The graph with another limit. -/
def withBudget (g : Graph) (budget : Nat) : Graph := { g with budget }

variable {g g' : Graph} {p : Problem} {goals : List Fact} {budget : Nat}

/-! ### One operation -/

/-- A limit is not looked at by an expansion. -/
theorem expand_withBudget :
    (g.withBudget budget).expand = (g.expand.1, g.expand.2.withBudget budget) := by
  obtain ⟨strict, _, schemas, goals, levels, fixedPoint, reachable, attempts⟩ := g
  cases levels with
  | nil => rfl
  | cons newest rest =>
    simp only [expand, withBudget, nextLevel, reaches, goalFacts?]
    generalize Except.map _ _ = next
    cases next with
    | error e => rfl
    | ok level =>
      dsimp only
      cases newest.facts.same level.facts <;> cases fixedPoint <;> rfl

/-- Nor is it by a search. -/
theorem extract_withBudget :
    (g.withBudget budget).extract = (g.extract.1, g.extract.2.withBudget budget) := by
  obtain ⟨strict, _, schemas, goals, levels, fixedPoint, reachable, attempts⟩ := g
  cases levels with
  | nil => rfl
  | cons newest rest =>
    cases reachable with
    | false => rfl
    | true =>
      simp only [extract, withBudget, noGoods, goalFacts?]
      cases factsOf? goals <;> rfl

/-! ### One round -/

/-- Below the limit a round ends as it does without one. -/
theorem RoundEnds.withBudget {last : Round} (h : g.RoundEnds last g') (hzero : g.budget = 0)
    (hlt : g.layersBuilt < budget) :
    (g.withBudget budget).RoundEnds last (g'.withBudget budget) := by
  have hexpand : ∀ {grew : Except GraphError Bool} {h : Graph}, g.expand = (grew, h) →
      (g.withBudget budget).expand = (grew, h.withBudget budget) :=
    fun heq => by rw [expand_withBudget, heq]
  have hextract : ∀ {answer : Except GraphError (Option (List Step))} {h h' : Graph},
      h.extract = (answer, h') → (h.withBudget budget).extract = (answer, h'.withBudget budget) :=
    fun heq => by rw [extract_withBudget, heq]
  cases h with
  | exhausted hne => exact absurd hzero hne
  | stuck he => exact .stuck (hexpand he)
  | closed he => exact .closed (hexpand he)
  | unreached he hreach => exact .unreached (hexpand he) hreach
  | unsearched he hx => exact .unsearched (hexpand he) (hextract hx)
  | found he hreach hx => exact .found (hexpand he) hreach (hextract hx) (.inr hlt)
  | resumed he hreach hx hmore => exact .resumed (hexpand he) hreach (hextract hx) hmore
  | settled he hreach hx hfixed hsame =>
    exact .settled (hexpand he) hreach (hextract hx) hfixed hsame

/-- **Below the limit a round is the one without a limit.** -/
theorem round_withBudget (hzero : g.budget = 0) (hlt : g.layersBuilt < budget) :
    (g.withBudget budget).round.1 = g.round.1 ∧
      (g.withBudget budget).round.2.2 = g.round.2.2.withBudget budget :=
  (g.roundEnds.withBudget hzero hlt).eq_round fun h => absurd h.2 (Nat.not_le.2 hlt)

/-- Without a limit the round that decides builds a level. -/
theorem Explored.layersBuilt_of_done (hx : g.Explored p goals 0) (hzero : g.budget = 0)
    {r : PlanResult} (hround : g.round.1 = .done r) : r.layersBuilt = g.layersBuilt + 1 := by
  have hends := g.roundEnds
  rw [hround] at hends
  have hgrown : ∀ {grew : Bool} {h : Graph}, g.expand = (.ok grew, h) →
      h.layersBuilt = g.layersBuilt + 1 := by
    intro grew h hexpand
    obtain ⟨newest, rest, level, hlevels, -, -, rfl, -⟩ := expand_eq_ok hexpand
    simp [layersBuilt, hlevels]
  have hkept : ∀ {grew : Bool} {h h' : Graph} {answer : Option (List Step)},
      g.expand = (.ok grew, h) → h.goalsReachable = true → h.extract = (.ok answer, h') →
      h'.layersBuilt = g.layersBuilt + 1 := by
    intro grew h h' answer hexpand hreach hextract
    rw [layersBuilt, ((hx.expand hexpand).1.keeps_of_extract hreach hextract).2]
    exact hgrown hexpand
  generalize g.round.2.2 = after at hends
  cases hends with
  | exhausted hne => exact absurd hzero hne
  | closed hexpand => exact hgrown hexpand
  | found hexpand hreach hextract => exact hkept hexpand hreach hextract
  | settled hexpand hreach hextract => exact hkept hexpand hreach hextract

/-! ### Many rounds -/

/-- Without a limit each decision comes after a further level. -/
theorem Explored.layersBuilt_lt_of_done (hreg : ∀ s ∈ p.schemas, s.Regular)
    (hx : g.Explored p goals 0) (hzero : g.budget = 0) {before : Graph} {r : PlanResult}
    (hrun : ReflTransGen Again g before) (hround : before.round.1 = .done r) :
    g.layersBuilt < r.layersBuilt := by
  have hle : g.layersBuilt ≤ before.layersBuilt := by
    clear hround
    induction hrun with
    | refl => exact Nat.le_refl _
    | tail hrun hgh ih =>
      rw [(hx.reflTransGen hreg hrun).layersBuilt_of_again hgh]
      exact Nat.le_succ_of_le ih
  rw [(hx.reflTransGen hreg hrun).layersBuilt_of_done
    ((hx.settings_of_reflTransGen hreg hrun).1.trans hzero) hround]
  exact Nat.lt_succ_of_le hle

/-- **With a limit the rounds are the same up to the limit**, and there the attempt ends. -/
theorem Explored.exists_cut (hreg : ∀ s ∈ p.schemas, s.Regular) (hpos : 1 ≤ budget)
    {before : Graph} {r : PlanResult} (hrun : ReflTransGen Again g before)
    (hround : before.round.1 = .done r) : g.Explored p goals 0 → g.budget = 0 →
    g.layersBuilt ≤ budget → ∃ last cut, ReflTransGen Again (g.withBudget budget) last ∧
      last.round.1 = .done cut ∧ r.CutAt budget cut := by
  have hlimit : ∀ h : Graph, h.layersBuilt = budget → h.layersBuilt < r.layersBuilt →
      ∃ last cut, ReflTransGen Again (h.withBudget budget) last ∧
        last.round.1 = .done cut ∧ r.CutAt budget cut := by
    intro h heq hlt
    have hused : (h.withBudget budget).budget ≠ 0 ∧
        (h.withBudget budget).budget ≤ (h.withBudget budget).layersBuilt :=
      ⟨Nat.ne_of_gt hpos, heq.ge⟩
    exact ⟨_, _, .refl, (round_of_budget_le hused).1, fun hle => by omega,
      fun _ => ⟨rfl, rfl, heq⟩⟩
  induction hrun using ReflTransGen.head_induction_on with
  | refl =>
    intro hx hzero hle
    have hlast := hx.layersBuilt_of_done hzero hround
    rcases hle.eq_or_lt with heq | hlt
    · exact hlimit _ heq (by omega)
    · exact ⟨_, r, .refl, (round_withBudget hzero hlt).1.trans hround,
        fun _ => rfl, fun hcut => absurd hcut (by omega)⟩
  | @head g next hgn hrun ih =>
    intro hx hzero hle
    rcases hle.eq_or_lt with heq | hlt
    · exact hlimit _ heq (hx.layersBuilt_lt_of_done hreg hzero (hrun.head hgn) hround)
    · obtain ⟨hsame, hgraph⟩ := round_withBudget hzero hlt
      have hnext : (g.withBudget budget).Again (next.withBudget budget) :=
        ⟨hsame.trans hgn.1, hgraph.trans (congrArg (Graph.withBudget · budget) hgn.2)⟩
      have hgrown : next.layersBuilt ≤ budget := (hx.layersBuilt_of_again hgn).trans_le hlt
      obtain ⟨last, cut, hlast, hcut⟩ :=
        ih (hx.again hreg hgn) ((hx.settings_of_again hgn).1.trans hzero) hgrown
      exact ⟨last, cut, hlast.head hnext, hcut⟩

end Graph

/-! ### The attempt -/

/-- The graph of a problem without a limit, and with one. -/
theorem Problem.graph_withBudget {p : Problem} (hreg : ∀ s ∈ p.schemas, s.Regular) {strict : Bool}
    {g : Graph} (h : p.graph strict 0 = .ok g) : g.budget = 0 ∧ g.layersBuilt = 0 ∧
      ∀ budget : Nat, p.graph strict budget = .ok (g.withBudget budget) := by
  rw [graph_eq hreg, if_neg (by decide)] at h
  obtain rfl := Except.ok.inj h
  refine ⟨rfl, rfl, fun budget => ?_⟩
  rw [graph_eq hreg, if_neg (Int.not_lt.2 (Int.natCast_nonneg budget))]
  rfl

namespace Graph

/-- **A limit only cuts an attempt short.** If there is an answer without a limit, then there is one
with every limit. It is the same in all respects if the limit is not less than the number of levels
that were built for it, and otherwise it says that the limit was reached. -/
theorem budget_only_cuts {text : String} {p : Problem} (hp : Problem.parse text = .ok p)
    (strict : Bool) : ∃ g, p.graph strict 0 = .ok g ∧
      ((∃ arity, arity ≠ 2 ∧
          g.solve.1 = .failed (.layer (.schema (.distinctArity noopName arity)))) ∨
        ∃ r, g.solve.1 = .done r ∧ ∀ budget : Nat, 1 ≤ budget → ∃ limited cut,
          p.graph strict budget = .ok limited ∧ limited.solve.1 = .done cut ∧
            r.CutAt budget cut) := by
  have hreg := Problem.regular_of_parse hp
  obtain ⟨g, hg⟩ : ∃ g, p.graph strict 0 = .ok g := ⟨_, Problem.graph_eq hreg strict 0⟩
  have hstart := Problem.explored_of_graph hreg hg
  obtain ⟨hzero, hbuilt, hlimited⟩ := Problem.graph_withBudget hreg hg
  obtain ⟨count, hne, hsolve⟩ := Problem.exists_rounds_eq hreg hg
  refine ⟨g, hg, ?_⟩
  rcases hstart.done_of_rounds hreg hne with ⟨r, hr, -⟩ | ⟨-, -, -, -, -, -, -, arity, harity, hr⟩
  · refine .inr ⟨r, hsolve.trans hr, fun budget hpos => ?_⟩
    obtain ⟨before, hrun, hround, -⟩ := exists_of_rounds hne
    obtain ⟨last, cut, hlast, hcut, hcutAt⟩ := Explored.exists_cut hreg hpos hrun
      (hround.trans hr) hstart hzero (hbuilt.trans_le (Nat.zero_le _))
    have hdecided := (Problem.solve_eq_round hreg (hlimited budget) hlast (by simp [hcut])).1
    exact ⟨_, cut, hlimited budget, hdecided.trans hcut, hcutAt⟩
  · exact .inl ⟨arity, harity, hsolve.trans hr⟩

/-- A way over three places. -/
def walkText : String :=
  "go :: at(X), to(X,Y) => not at(X), at(Y). at(a). to(a,b). to(b,c). goal at(c)."

/-- Two levels are built to get from the first place to the third one, so a limit of one cuts the
attempt short, and no greater limit does. -/
theorem budget_only_cuts_walk : ∃ p g r, Problem.parse walkText = .ok p ∧
    p.graph true 0 = .ok g ∧ g.solve.1 = .done r ∧ r.status = .solved ∧ r.layersBuilt = 2 ∧
    ∀ budget : Nat, 1 ≤ budget → ∃ limited cut, p.graph true budget = .ok limited ∧
      limited.solve.1 = .done cut ∧ r.CutAt budget cut := by
  have hanswer : (Problem.outcome? walkText true 0).any (fun r =>
      decide (r.status = .solved) && decide (r.layersBuilt = 2)) = true := by decide +kernel
  obtain ⟨r, houtcome, hanswer⟩ := (Option.any_eq_true _ _).1 hanswer
  obtain ⟨p, g, hp, hg, hsolve⟩ := Problem.exists_of_outcome?_eq_some houtcome
  obtain ⟨hstatus, hbuilt⟩ := Bool.and_eq_true_iff.1 hanswer
  obtain ⟨g', hg', ⟨arity, -, hfailed⟩ | ⟨r', hsolve', hcut⟩⟩ := budget_only_cuts hp true
  all_goals obtain rfl := Except.ok.inj (hg.symm.trans hg')
  · rw [hsolve] at hfailed
    cases hfailed
  · obtain rfl := Round.done.inj (hsolve.symm.trans hsolve')
    exact ⟨p, g, r, hp, hg, hsolve, of_decide_eq_true hstatus, of_decide_eq_true hbuilt, hcut⟩

end Graph

end Strips
