import Strips.Proofs.Consistency

/-!
# What is known after a number of rounds

Between two rounds of an attempt to solve, the levels form a ladder, all no-goods are sealed, and
the goals are blocked at every level above the initial one, since each of these levels was the
newest when the goals were searched for. From the fixed point on the levels do not differ, and every
no-good of the level of the fixed point goes back to the goals: some number of regressions through
that level leads from the goals to it. That number is never greater than the number of levels above
the fixed point, and when a new level was added and not yet searched it is smaller.

## Main definitions

* `Graph.Explored` – what is known, with the number of newest levels that were not searched yet.

## Main results

* `Graph.Explored.expand`, `Graph.Explored.extract_none` – what one expansion and one search
  preserve.
* `Graph.Explored.again` – what one round preserves.
* `Problem.explored_of_graph`, `Problem.exists_of_solve` – what is known at the start, and before
  the decision.
-/

namespace Strips

open Relation

namespace Graph

/-! ### The invariant -/

/-- What is known of a graph on which the problem was loaded, when no plan was found so far and all
levels but the given number of newest ones were searched. -/
structure Explored (g : Graph) (p : Problem) (goals : List Fact) (unsearched : Nat) : Prop
    extends g.Consistent p goals where
  blocked : ∀ i, unsearched ≤ i → i + 1 < g.levels.length →
    Blocked ((stagesOf g.levels).drop i) (g.noGoods.drop i) goals
  demanded : ∀ number, g.fixedPoint = some number → ∃ depth fixed before,
    g.IsFixed number depth fixed before ∧ ∀ noGood ∈ fixed.noGoods, ∃ count,
      count + unsearched ≤ depth ∧ Regresses Step.preconditions fixed.stage count goals noGood

namespace Explored

variable {g g' : Graph} {p : Problem} {goals : List Fact} {unsearched : Nat}

/-- The newest level, and what was derived from it. -/
theorem expand (h : g.Explored p goals 0) {grew : Bool} (hexpand : g.expand = (.ok grew, g')) :
    g'.Explored p goals 1 ∧ ∃ newest rest level, g.levels = newest :: rest ∧
      level.Follows p.schemas g.strict newest ∧ level.noGoods = [] ∧
      g'.levels = level :: g.levels ∧ g'.strict = g.strict ∧
      g'.goalsReachable = level.facts.supports goals ∧
      g'.fixedPoint = g.fixedPoint.or
        (if newest.facts.same level.facts then some g.levels.length else none) ∧
      grew = (g'.goalsReachable || g'.fixedPoint.isNone) := by
  obtain ⟨hnext, newest, rest, level, hlevels, hfollows, hnone, hlevels', hothers⟩ :=
    h.toConsistent.expand hexpand
  refine ⟨⟨hnext, fun i hi hlt => ?_, fun number hnumber => ?_⟩, newest, rest, level, hlevels,
    hfollows, hnone, hlevels', hothers⟩
  · obtain ⟨j, rfl⟩ := Nat.exists_eq_add_of_le' hi
    rw [noGoods, hlevels'] at *
    exact h.blocked j (Nat.zero_le j) (Nat.lt_of_succ_lt_succ hlt)
  · obtain ⟨-, -, hfixedPoint, -⟩ := hothers
    rw [hfixedPoint] at hnumber
    rcases Option.or_eq_some_iff.1 hnumber with hn | ⟨hn, hsame⟩
    · obtain ⟨depth, fixed, before, hfixed, hdemanded⟩ := h.demanded number hn
      refine ⟨depth + 1, fixed, before, hfixed.cons hlevels', fun noGood hmem => ?_⟩
      obtain ⟨count, hcount, hregresses⟩ := hdemanded noGood hmem
      exact ⟨count, Nat.succ_le_succ hcount, hregresses⟩
    · split at hsame
      · rename_i hsame'
        obtain rfl := Option.some.inj hsame
        refine ⟨0, level, newest, ?_, fun noGood hmem => ?_⟩
        · rw [hlevels]
          exact .of_same (hlevels ▸ hlevels') hsame'
        · rw [hnone] at hmem
          cases hmem
      · cases hsame

/-- **An expansion fails only at a fact that no step can keep**: one that is named like the
constraints and has not two arguments. -/
theorem expand_eq_error (hreg : ∀ s ∈ p.schemas, s.Regular) (h : g.Explored p goals 0)
    {e : GraphError} (hexpand : g.expand = (.error e, g')) :
    ∃ level ∈ g.levels, ∃ f ∈ level.facts.facts, f.name = distinctName ∧
      ∃ arity, arity ≠ 2 ∧ e = .layer (.schema (.distinctArity noopName arity)) := by
  obtain ⟨-, newest, rest, hlevels, f, hf, cause, hkeep, rfl⟩ :=
    h.toConsistent.expand_eq_error hreg hexpand
  obtain ⟨hname, arity, harity, rfl⟩ := Step.keep_eq_error hkeep
  exact ⟨newest, hlevels ▸ List.mem_cons_self, f, hf, hname, arity, harity, rfl⟩

/-- A level that does not support the goals need not be searched. -/
theorem skip (h : g.Explored p goals 1) {level : Level} {rest : List Level}
    (hlevels : g.levels = level :: rest) (hgoals : level.facts.supports goals = false) :
    g.Explored p goals 0 := by
  refine ⟨h.toConsistent, fun i _ hlt => ?_, fun number hnumber => ?_⟩
  · cases i with
    | zero =>
      rw [List.drop_zero, List.drop_zero, hlevels]
      exact .inl hgoals
    | succ i => exact h.blocked (i + 1) (Nat.succ_le_succ (Nat.zero_le i)) hlt
  · obtain ⟨depth, fixed, before, hfixed, hdemanded⟩ := h.demanded number hnumber
    refine ⟨depth, fixed, before, hfixed, fun noGood hmem => ?_⟩
    obtain ⟨count, hcount, hregresses⟩ := hdemanded noGood hmem
    exact ⟨count, by omega, hregresses⟩

/-- **After a search that failed all levels are searched.** What the search has learnt goes back to
the goals, since it came to it from them. -/
theorem extract_none (hreg : ∀ s ∈ p.schemas, s.Regular) (h : g.Explored p goals 1)
    (hreach : g.goalsReachable = true) (hextract : g.extract = (.ok none, g')) :
    g'.Explored p goals 0 := by
  have hnext := h.of_extract hreach hextract
  obtain ⟨hanswer, rfl⟩ := h.extract hreach hextract
  obtain ⟨hlearns, hblocked⟩ := h.search_learns
  replace hblocked := hblocked hanswer.symm
  have hdemands : ∀ depth, ∀ noGood ∈ (search Step.preconditions (stagesOf g.levels) goals
      g.noGoods).2.getD depth [], noGood ∈ g.noGoods.getD depth [] ∨
        Demands Step.preconditions (stagesOf g.levels) depth goals noGood :=
    fun _ _ hmem => demands_of_search hmem
  generalize (search Step.preconditions (stagesOf g.levels) goals g.noGoods).2 = noGoods at *
  have hlen := length_of_learns hlearns
  refine ⟨hnext, fun i _ hlt => ?_, fun number hn => ?_⟩
  · change Blocked ((stagesOf (withNoGoods g.levels noGoods)).drop i)
      (((withNoGoods g.levels noGoods).map Level.noGoods).drop i) goals
    rw [stagesOf_withNoGoods hlen, noGoods_withNoGoods hlen]
    rw [length_withNoGoods hlen] at hlt
    cases i with
    | zero => exact hblocked
    | succ i =>
      exact hlearns.blocked_drop (h.blocked (i + 1) (Nat.succ_le_succ (Nat.zero_le i)) hlt)
  · obtain ⟨depth, fixed, before, hfixed, hdemanded⟩ := h.demanded number hn
    refine ⟨depth, _, _, hfixed.withNoGoods hlen rfl, fun noGood hmem => ?_⟩
    rcases hdemands depth noGood hmem with hold | hnew
    · rw [getD_noGoods hfixed.get_fixed] at hold
      obtain ⟨count, hcount, hregresses⟩ := hdemanded noGood hold
      exact ⟨count, by omega, hregresses⟩
    · have hlt := (List.getElem?_eq_some_iff.1 hfixed.get_fixed).1
      refine ⟨depth, Nat.le_refl _, hnew.regresses h.ladder.lawful (fun stage hs => ?_) ?_⟩
      · exact hfixed.agrees_of_mem hreg h.ladder (by omega : 0 + depth ≤ depth + 1) hs
      · rw [List.length_map]
        exact hlt.le

/-- **Every round that is to be followed by another one keeps the invariant.** -/
theorem again (hreg : ∀ s ∈ p.schemas, s.Regular) (h : g.Explored p goals 0) (hgg : g.Again g') :
    g'.Explored p goals 0 := by
  cases hgg.roundEnds with
  | unreached hexpand hreach =>
    obtain ⟨hnext, _, _, level, -, -, -, hlevels', -, hsupports, -⟩ := h.expand hexpand
    exact hnext.skip hlevels' (hsupports ▸ hreach)
  | resumed hexpand hreach hextract hmore =>
    exact (h.expand hexpand).1.extract_none hreg hreach hextract

theorem reflTransGen (hreg : ∀ s ∈ p.schemas, s.Regular) (h : g.Explored p goals 0)
    (hrun : ReflTransGen Again g g') : g'.Explored p goals 0 := by
  induction hrun with
  | refl => exact h
  | tail _ hgg ih => exact ih.again hreg hgg

/-! ### What is out of reach -/

/-- The part of a ladder from a level down to the initial one. -/
theorem exists_cons (h : g.Explored p goals unsearched) {i : Nat} (hi : i < g.levels.length) :
    ∃ top rest, g.levels.drop i = top :: rest ∧ rest.length + i + 1 = g.levels.length ∧
      g.levels[i]? = some top ∧ Ladder p g.strict (top :: rest) ∧
      Regressive Step.preconditions (stagesOf (top :: rest)) (g.noGoods.drop i) := by
  have hladder := h.ladder.drop hi
  have hr := h.regressive.drop i (by rwa [stagesOf, List.length_map])
  rw [stagesOf, ← List.map_drop] at hr
  have hlen := List.length_drop (i := i) (l := g.levels)
  have hget : (g.levels.drop i)[0]? = g.levels[i + 0]? := List.getElem?_drop
  cases hdrop : g.levels.drop i with
  | nil => exact absurd hdrop hladder.ne_nil
  | cons top rest =>
    rw [hdrop] at hladder hr hlen hget
    rw [List.length_cons] at hlen
    exact ⟨top, rest, rfl, by omega, hget.symm, hladder, hr⟩

/-- A set that is blocked at a level is in no state that is reached there. -/
theorem exists_not_mem_of_blocked (hreg : ∀ s ∈ p.schemas, s.Regular)
    (h : g.Explored p goals unsearched) {i count : Nat} (hi : count + i + 1 = g.levels.length)
    {facts : List Fact} (hb : Blocked ((stagesOf g.levels).drop i) (g.noGoods.drop i) facts)
    {state : State} (hstate : p.ReachableIn count state) : ∃ f ∈ facts, f ∉ state := by
  obtain ⟨top, rest, hdrop, hlen, -, hladder, hr⟩ := h.exists_cons (by omega : i < g.levels.length)
  rw [stagesOf, ← List.map_drop, hdrop] at hb
  obtain rfl : rest.length = count := by omega
  exact hladder.exists_not_mem_of_blocked hreg hr hb hstate

/-- **The goals are out of reach at every level that was searched.** -/
theorem exists_not_mem (hreg : ∀ s ∈ p.schemas, s.Regular) (h : g.Explored p goals unsearched)
    {count : Nat} (hpos : 1 ≤ count) (hlt : count + unsearched < g.levels.length) {state : State}
    (hstate : p.ReachableIn count state) : ∃ f ∈ goals, f ∉ state := by
  obtain ⟨i, hi⟩ := Nat.exists_eq_add_of_lt hlt
  exact h.exists_not_mem_of_blocked hreg (i := unsearched + i) (by omega)
    (h.blocked (unsearched + i) (by omega) (by omega)) hstate

end Explored

end Graph

/-- **What is known when a problem was loaded.** -/
theorem Problem.explored_of_graph {p : Problem} (hreg : ∀ s ∈ p.schemas, s.Regular) {strict : Bool}
    {budget : Int} {g : Graph} (h : p.graph strict budget = .ok g) :
    g.Explored p (eachOnce p.goals) 0 := by
  have hc := consistent_of_graph hreg h
  rw [graph_eq hreg] at h
  split at h
  · cases h
  · obtain rfl := Except.ok.inj h
    refine ⟨hc, fun i _ hlt => ?_, fun _ hn => by cases hn⟩
    exact absurd (Nat.lt_of_succ_lt_succ hlt) (Nat.not_lt_zero i)

/-- **What is known before the round that decides.** -/
theorem Problem.exists_of_solve {p : Problem} (hreg : ∀ s ∈ p.schemas, s.Regular) {strict : Bool}
    {budget : Int} {g : Graph} (h : p.graph strict budget = .ok g) {r : PlanResult}
    (hsolve : g.solve.1 = .done r) :
    ∃ before after : Graph, before.Explored p (eachOnce p.goals) 0 ∧
      before.RoundEnds (.done r) after := by
  obtain ⟨before, after, hagain, hends⟩ := Graph.exists_of_solve hsolve
  exact ⟨before, after, (explored_of_graph hreg h).reflTransGen hreg hagain, hends⟩

end Strips
