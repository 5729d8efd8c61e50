import Strips.Proofs.Exploration

/-!
# Problems without a plan

An attempt ends without a plan in one of two ways. In the first the goals are not supported at the
fixed point. The level of the fixed point answers for every state that can be reached at all, so no
such state contains the goals.

In the second a search has added nothing to the no-goods of the level of the fixed point. Each of
these no-goods then goes back to the goals by fewer regressions than there are levels above, so that
it is blocked one level above the fixed point. What covers it there needs a set that is blocked at
the level of the fixed point, which means that it contains a no-good of the same family, unless it
is not supported. A state that is reached in one step from states without these no-goods therefore
contains none either, and the goals contain one.

## Main results

* `Graph.IsFixed.supports` – the level of the fixed point supports every state that can be reached.
* `Graph.exists_not_mem_of_unsolvable` – an attempt that ends as unsolvable is right.
-/

namespace Strips

namespace Graph

namespace IsFixed

variable {g : Graph} {p : Problem} {number depth : Nat} {fixed before : Level}
  (hreg : ∀ s ∈ p.schemas, s.Regular) (hl : Ladder p g.strict g.levels)
  (h : g.IsFixed number depth fixed before)

include hreg hl h

/-- From a state that the level of the fixed point supports, the same level answers for one more
step. -/
theorem exists_covers {state next : State} {steps : List Step}
    (hs : fixed.facts.supports state = true) (hstep : p.ParallelStep state steps next) :
    fixed.facts.supports next = true ∧ ∃ chosen, fixed.stage.Covers chosen next ∧
      ∀ f ∈ preconditionsOf Step.preconditions chosen, f ∈ state := by
  have hsound := hl.sound _ (List.mem_of_getElem? h.get_before)
  have hbelow := (h.below_before hreg hl h.get_fixed (Nat.le_succ depth)).1
  exact (hl.follows h.get_fixed h.get_before).exists_covers hreg hsound
    (hbelow.supports (hl.sound _ (List.mem_of_getElem? h.get_fixed)) hsound hs) hstep

/-- **The level of the fixed point supports every state that can be reached.** -/
theorem supports {count : Nat} {state : State} (hstate : p.ReachableIn count state) :
    fixed.facts.supports state = true := by
  induction hstate with
  | start hinitial =>
    exact hl.supports_of_getElem? hreg h.get_fixed
      (by rw [Nat.zero_add]; exact (List.getElem?_eq_some_iff.1 h.get_fixed).1) (.start hinitial)
  | step _ hstep ih => exact (h.exists_covers hreg hl ih hstep).1

end IsFixed

namespace Explored

variable {g g' : Graph} {p : Problem} {goals : List Fact} {unsearched : Nat}

/-- Goals that are not supported at the fixed point are out of reach. -/
theorem exists_not_mem_of_closed (hreg : ∀ s ∈ p.schemas, s.Regular)
    (h : g.Explored p goals unsearched) {level : Level} {rest : List Level}
    (hlevels : g.levels = level :: rest) (hgoals : level.facts.supports goals = false)
    {number : Nat} (hnumber : g.fixedPoint = some number) {count : Nat} {state : State}
    (hstate : p.ReachableIn count state) : ∃ f ∈ goals, f ∉ state := by
  obtain ⟨depth, fixed, before, hfixed, -⟩ := h.demanded number hnumber
  have hsound := fun i level (hi : g.levels[i]? = some level) =>
    h.ladder.sound level (List.mem_of_getElem? hi)
  have htop : g.levels[0]? = some level := by rw [hlevels]; rfl
  by_contra! hsub
  have hsupports := (hsound depth fixed hfixed.get_fixed).supports_mono hsub
    (hfixed.supports hreg h.ladder hstate)
  have hbelow := h.ladder.below_of_le (Nat.zero_le depth) htop hfixed.get_fixed
  rw [hbelow.supports (hsound depth fixed hfixed.get_fixed) (hsound 0 level htop) hsupports]
    at hgoals
  cases hgoals

/-- What the goals regress to at the level of the fixed point is blocked one level above it, if
fewer regressions lead there than there are levels above: the same regressions from a later level
end there. -/
theorem blocked_of_regresses (hreg : ∀ s ∈ p.schemas, s.Regular) (h : g.Explored p goals 0)
    {number depth : Nat} {fixed before : Level} (hfixed : g.IsFixed number depth fixed before)
    {facts : List Fact} {count : Nat} (hlt : count < depth)
    (hregresses : Regresses Step.preconditions fixed.stage count goals facts) :
    Blocked ((stagesOf g.levels).drop (depth - 1)) (g.noGoods.drop (depth - 1)) facts := by
  obtain ⟨skipped, rfl⟩ := Nat.exists_eq_add_of_lt hlt
  have hlength : count + skipped + 1 + 1 < g.levels.length :=
    (List.getElem?_eq_some_iff.1 hfixed.get_before).1
  have hstages : (stagesOf g.levels).length = g.levels.length := List.length_map ..
  have hdepth : count + skipped + 1 - 1 = skipped + count := by omega
  rw [hdepth, ← List.drop_drop, ← List.drop_drop]
  refine (h.blocked skipped (Nat.zero_le _) (by omega)).regress
    (fun stage hs => h.ladder.lawful stage (List.mem_of_mem_drop hs)) (fun stage hs => ?_)
    (by rw [List.length_drop, hstages]; omega) (h.regressive.drop skipped (by omega)) hregresses
  exact hfixed.agrees_of_mem hreg h.ladder (by omega) hs

/-- If each no-good of the level of the fixed point goes back to the goals by fewer regressions than
there are levels above, then none of these no-goods can be reached. -/
theorem exists_not_mem_of_mem_noGoods (hreg : ∀ s ∈ p.schemas, s.Regular) (h : g.Explored p goals 0)
    {number depth : Nat} {fixed before : Level} (hfixed : g.IsFixed number depth fixed before)
    (hdemanded : ∀ noGood ∈ fixed.noGoods, ∃ count, count < depth ∧
      Regresses Step.preconditions fixed.stage count goals noGood)
    {count : Nat} {state : State} (hstate : p.ReachableIn count state) :
    ∀ noGood ∈ fixed.noGoods, ∃ f ∈ noGood, f ∉ state := by
  have hget : g.noGoods.getD depth [] = fixed.noGoods := getD_noGoods hfixed.get_fixed
  have hlt : depth + 1 < g.levels.length := (List.getElem?_eq_some_iff.1 hfixed.get_before).1
  have hlen : (stagesOf g.levels).length = g.levels.length := List.length_map ..
  have hfixedStage := getElem?_stagesOf hfixed.get_fixed
  induction hstate with
  | @start state hinitial =>
    intro noGood hmem
    -- the initial state is also reached by waiting up to the fixed point
    have hlength : number + depth + 1 = g.levels.length :=
      Nat.add_comm depth number ▸ hfixed.length_eq
    refine h.exists_not_mem_of_blocked hreg hlength ?_
      ((Problem.ReachableIn.start hinitial : p.ReachableIn 0 state).mono (Nat.zero_le number))
    exact (blocked_drop_iff hfixedStage).2 (.inr ⟨noGood, hget ▸ hmem, fun _ => id⟩)
  | @step count state next steps hstate hstep ih =>
    intro noGood hmem
    obtain ⟨k, hk, hregresses⟩ := hdemanded noGood hmem
    have hblocked := h.blocked_of_regresses hreg hfixed hk hregresses
    have hlevel := List.getElem?_eq_getElem (by omega : depth - 1 < g.levels.length)
    have hagrees := hfixed.agrees hreg h.ladder hlevel (by omega)
    have hlawful := h.ladder.lawful fixed.stage (List.mem_of_getElem? hfixedStage)
    have hsupported := hfixed.supports hreg h.ladder hstate
    obtain ⟨hsupports, chosen, hcovers, hneeds⟩ :=
      hfixed.exists_covers hreg h.ladder hsupported hstep
    by_contra! hsub
    rcases (blocked_drop_iff (getElem?_stagesOf hlevel)).1 hblocked with
      hno | ⟨above, habove, hcontains⟩
    · rw [hagrees.supports, hlawful.supports_mono hsub hsupports] at hno
      cases hno
    · -- the cover of the next state needs what is blocked at the level of the fixed point
      have hbelow := h.regressive.sealed (getElem?_stagesOf hlevel) (by omega) above habove chosen
        (hagrees.symm.covers (hcovers.mono fun f hf => hsub f (hcontains f hf)))
      rw [Nat.sub_add_cancel (by omega : 1 ≤ depth)] at hbelow
      rcases (blocked_drop_iff hfixedStage).1 hbelow with hno | ⟨older, holder, hcontains'⟩
      · rw [hlawful.supports_mono hneeds hsupported] at hno
        cases hno
      · obtain ⟨f, hf, hno⟩ := ih older (hget ▸ holder)
        exact hno (hneeds f (hcontains' f hf))

/-- A search that adds nothing to the no-goods of the level of the fixed point leaves the goals out
of reach. -/
theorem exists_not_mem_of_settled (hreg : ∀ s ∈ p.schemas, s.Regular) (h : g.Explored p goals 1)
    (hreach : g.goalsReachable = true) (hextract : g.extract = (.ok none, g'))
    (hsome : g'.fixedPoint ≠ none) (hsame : g'.fixedPointNoGoods = g.fixedPointNoGoods)
    {count : Nat} {state : State} (hstate : p.ReachableIn count state) :
    ∃ f ∈ goals, f ∉ state := by
  have h' := h.extract_none hreg hreach hextract
  obtain ⟨number, hnumber'⟩ := Option.ne_none_iff_exists'.1 hsome
  obtain ⟨hkept, hlength⟩ := h.keeps_of_extract hreach hextract
  have hnumber := hkept.symm.trans hnumber'
  obtain ⟨depth, fixed, before, hfixed, hdemanded⟩ := h.demanded number hnumber
  obtain ⟨depth', fixed', before', hfixed', -⟩ := h'.demanded number hnumber'
  -- the level of the fixed point is as it was before the search
  obtain ⟨new, hnew⟩ := h.level?_of_extract hreach hextract hfixed.level?_eq
  rw [fixedPointNoGoods_eq hnumber' hnew, fixedPointNoGoods_eq hnumber hfixed.level?_eq,
    List.length_append, Nat.add_eq_left, List.length_eq_zero_iff] at hsame
  rw [hsame, List.append_nil, hfixed'.level?_eq] at hnew
  obtain rfl : fixed' = fixed := Option.some.inj hnew
  have hdepth : depth' = depth := by
    have hfrom := hfixed.length_eq
    have hfrom' := hfixed'.length_eq
    omega
  have hreached := h'.exists_not_mem_of_mem_noGoods hreg hfixed' (hdepth ▸ hdemanded) hstate
  have hsupports := hfixed'.supports hreg h'.ladder hstate
  have hlt := (List.getElem?_eq_some_iff.1 hfixed'.get_before).1
  by_contra! hsub
  rcases (blocked_drop_iff (getElem?_stagesOf hfixed'.get_fixed)).1
    (h'.blocked depth' (Nat.zero_le _) hlt) with hno | ⟨noGood, hmem, hcontains⟩
  · have hsound := h'.ladder.sound fixed' (List.mem_of_getElem? hfixed'.get_fixed)
    rw [show fixed'.stage.supports goals = true from hsound.supports_mono hsub hsupports] at hno
    cases hno
  · obtain ⟨f, hf, hno⟩ := hreached noGood (getD_noGoods hfixed'.get_fixed ▸ hmem)
    exact hno (hsub f (hcontains f hf))

end Explored

/-- **An attempt that ends as unsolvable is right**: no sequence of instances that runs from the
initial state ends in a state that contains the goals. -/
theorem exists_not_mem_of_unsolvable {text : String} {p : Problem} (hp : Problem.parse text = .ok p)
    {strict : Bool} {budget : Int} {g : Graph} (hg : p.graph strict budget = .ok g) {r : PlanResult}
    (hsolve : g.solve.1 = .done r) (hstatus : r.status = .unsolvable) (plan : List Step)
    (hplan : ∀ t ∈ plan, p.IsInstance t) (last : State)
    (hrun : State.run p.initial (plan.map .step) = .ok last) : ∃ goal ∈ p.goals, goal ∉ last := by
  have hreg := Problem.regular_of_parse hp
  have hstate := Problem.reachableIn_of_run hplan hrun
  obtain ⟨before, after, hbefore, hends⟩ := Problem.exists_of_solve hreg hg hsolve
  have hgoals : ∃ goal ∈ Problem.eachOnce p.goals, goal ∉ last := by
    cases hends with
    | exhausted => cases hstatus
    | found => cases hstatus
    | closed hexpand =>
      obtain ⟨hexplored, _, _, level, -, -, -, hlevels, -, hsupports, -, hgrew⟩ :=
        hbefore.expand hexpand
      obtain ⟨hunreached, hsome⟩ := Bool.or_eq_false_iff.1 hgrew.symm
      obtain ⟨number, hnumber⟩ := Option.ne_none_iff_exists'.1
        (fun hnone => Bool.eq_false_iff.1 hsome (Option.isNone_iff_eq_none.2 hnone))
      exact hexplored.exists_not_mem_of_closed hreg hlevels (hsupports ▸ hunreached) hnumber hstate
    | settled hexpand hreach hextract hfixed hsame =>
      exact (hbefore.expand hexpand).1.exists_not_mem_of_settled hreg hreach hextract hfixed hsame
        hstate
  obtain ⟨goal, hgoal, hno⟩ := hgoals
  exact ⟨goal, Problem.mem_eachOnce.1 hgoal, hno⟩

/-- One coin, and two things to buy. -/
def coinText : String :=
  "buy :: coin(X), item(Y) => not coin(X), have(Y)." ++
  "coin(p). item(a). item(b). goal have(a). goal have(b)."

/-- Two things cannot be bought for one coin. This takes four searches to come out, since without
strict mode keeping one thing does not exclude buying the other one. -/
theorem exists_not_mem_coin : ∃ p g r, Problem.parse coinText = .ok p ∧
    p.graph false 0 = .ok g ∧ g.solve.1 = .done r ∧ r.status = .unsolvable ∧ r.attempts = 4 ∧
    ∀ plan : List Step, (∀ t ∈ plan, p.IsInstance t) → ∀ last,
      State.run p.initial (plan.map .step) = .ok last → ∃ goal ∈ p.goals, goal ∉ last := by
  have hdecision : (Problem.outcome? coinText false 0).map (fun r => (r.status, r.attempts)) =
      some (.unsolvable, 4) := by decide +kernel
  obtain ⟨r, hr, hpair⟩ := Option.map_eq_some_iff.1 hdecision
  obtain ⟨hstatus, hattempts⟩ := Prod.mk.inj hpair
  obtain ⟨p, g, hp, hg, hsolve⟩ := Problem.exists_of_outcome?_eq_some hr
  exact ⟨p, g, r, hp, hg, hsolve, hstatus, hattempts, fun plan hplan last hrun =>
    exists_not_mem_of_unsolvable hp hg hsolve hstatus plan hplan last hrun⟩

end Graph

end Strips
