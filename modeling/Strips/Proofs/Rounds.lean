import Mathlib.Logic.Relation
import Strips.Graph.Solve
import Strips.Problem
import Strips.Proofs.Reading

/-!
# What a round does

A round expands the graph by one level and, if the goals are reachable there, searches once. It ends
in one of a few ways, and an attempt to solve is a sequence of rounds that end in `again`, followed
by one that does not. Everything about an attempt is shown along these ways.

## Main definitions

* `Graph.RoundEnds` – how a round can end.
* `Graph.Again` – from a graph to the one after a round that is to be followed by another.

## Main results

* `Graph.roundEnds` – every round ends in one of these ways.
* `Graph.exists_round_of_solve`, `Graph.solve_eq_round` – how an attempt comes to its decision.
* `Problem.graph_eq` – a problem of regular schemas can be loaded.
-/

namespace Strips

open Relation

/-! ### One operation -/

/-- The levels with other no-goods. -/
def withNoGoods (levels : List Level) (noGoods : NoGoods Fact) : List Level :=
  levels.zipWith (fun level noGoods => { level with noGoods }) noGoods

namespace Graph

/-- What a successful expansion does. -/
theorem expand_eq_ok {g g' : Graph} {grew : Bool} (h : g.expand = (.ok grew, g')) :
    ∃ newest rest level, g.levels = newest :: rest ∧ g.nextLevel newest = .ok level ∧
      (g.fixedPoint = none ∨ newest.facts.same level.facts = true) ∧
      g' = { g with
        levels := level :: g.levels
        fixedPoint := g.fixedPoint.or
          (if newest.facts.same level.facts then some g.levels.length else none)
        goalsReachable := g.reaches level.facts } ∧
      grew = (g'.goalsReachable || g'.fixedPoint.isNone) := by
  rw [expand] at h
  split at h
  · cases h
  · rename_i newest rest hlevels
    split at h
    · cases h
    · rename_i level hnext
      refine ⟨newest, rest, level, hlevels, hnext, ?_⟩
      dsimp only at h
      split at h
      · cases h
      · rename_i hstable
        cases h
        refine ⟨?_, rfl, rfl⟩
        cases hf : g.fixedPoint with
        | none => exact .inl rfl
        | some n => exact .inr (Bool.not_eq_false _ ▸ fun hs => hstable n hs hf)

/-- Why an expansion of a graph with levels fails. -/
theorem expand_eq_error {g g' : Graph} {e : GraphError} (h : g.expand = (.error e, g'))
    (hlevels : g.levels ≠ []) : ∃ newest rest, g.levels = newest :: rest ∧
      ((∃ cause, g.nextLevel newest = .error cause ∧ e = .layer cause ∧ g' = g) ∨
        ∃ number level, g.fixedPoint = some number ∧ g.nextLevel newest = .ok level ∧
          newest.facts.same level.facts = false) := by
  rw [expand] at h
  split at h
  · rename_i hnil
    exact absurd hnil hlevels
  · rename_i newest rest hcons
    refine ⟨newest, rest, hcons, ?_⟩
    split at h
    · rename_i cause hnext
      cases h
      exact .inl ⟨cause, hnext, rfl, rfl⟩
    · rename_i level hnext
      dsimp only at h
      split at h
      · rename_i number hstable hnumber
        exact .inr ⟨number, level, hnumber, hnext, hstable⟩
      · cases h

/-- What a search does when the goals are reachable. -/
theorem extract_eq {g : Graph} (hlevels : g.levels ≠ []) (hreach : g.goalsReachable = true)
    {goals : List Fact} (hgoals : g.goalFacts? = some goals) :
    g.extract = (.ok (search Step.preconditions (g.levels.map Level.stage) goals g.noGoods).1,
      { g with
        attempts := g.attempts + 1
        levels := withNoGoods g.levels
          (search Step.preconditions (g.levels.map Level.stage) goals g.noGoods).2 }) := by
  rw [extract, if_neg (by simpa using hlevels), if_neg (by simp [hreach])]
  have hgoals' : ({ g with attempts := g.attempts + 1 } : Graph).goalFacts? = some goals := hgoals
  simp only [hgoals']
  rfl

/-! ### One round -/

/-- How a round on a graph can end, and the graph after it. -/
inductive RoundEnds (g : Graph) : Round → Graph → Prop
  /-- The budget was used up before. -/
  | exhausted (hbudget : g.budget ≠ 0) (hle : g.budget ≤ g.layersBuilt) :
      RoundEnds g (.done (g.result .budgetExhausted none)) g
  /-- There is no next level. -/
  | stuck {e : GraphError} {g' : Graph} (hexpand : g.expand = (.error e, g')) :
      RoundEnds g (.failed e) g'
  /-- The graph does not grow any more, and the goals are not reachable. -/
  | closed {g' : Graph} (hexpand : g.expand = (.ok false, g')) :
      RoundEnds g (.done (g'.result .unsolvable none)) g'
  /-- The goals are not reachable yet. -/
  | unreached {g' : Graph} (hexpand : g.expand = (.ok true, g'))
      (hreach : g'.goalsReachable = false) : RoundEnds g .again g'
  /-- There was nothing to search. -/
  | unsearched {e : GraphError} {g' g'' : Graph} (hexpand : g.expand = (.ok true, g'))
      (hextract : g'.extract = (.error e, g'')) : RoundEnds g (.failed e) g''
  /-- A plan was found. -/
  | found {g' g'' : Graph} {plan : List Step} (hexpand : g.expand = (.ok true, g'))
      (hreach : g'.goalsReachable = true) (hextract : g'.extract = (.ok (some plan), g''))
      (hbudget : g.budget = 0 ∨ g.layersBuilt < g.budget) :
      RoundEnds g (.done (g''.result .solved (some plan))) g''
  /-- No plan was found, but the graph still grows, or the level of the fixed point has learnt. -/
  | resumed {g' g'' : Graph} (hexpand : g.expand = (.ok true, g'))
      (hreach : g'.goalsReachable = true) (hextract : g'.extract = (.ok none, g''))
      (hmore : g''.fixedPoint = none ∨ g''.fixedPointNoGoods ≠ g'.fixedPointNoGoods) :
      RoundEnds g .again g''
  /-- No plan was found, and the level of the fixed point has learnt nothing. -/
  | settled {g' g'' : Graph} (hexpand : g.expand = (.ok true, g'))
      (hreach : g'.goalsReachable = true) (hextract : g'.extract = (.ok none, g''))
      (hfixed : g''.fixedPoint ≠ none) (hsame : g''.fixedPointNoGoods = g'.fixedPointNoGoods) :
      RoundEnds g (.done (g''.result .unsolvable none)) g''

/-- **Every round ends in one of these ways.** -/
theorem roundEnds (g : Graph) : g.RoundEnds g.round.1 g.round.2.2 := by
  rw [round]
  split
  · rename_i hbudget
    exact .exhausted hbudget.1 hbudget.2
  · rename_i hbudget
    rcases hexpand : g.expand with ⟨e | grew, g'⟩
    · exact .stuck hexpand
    · dsimp only
      cases grew with
      | false => exact .closed hexpand
      | true =>
        rw [if_neg (by decide)]
        by_cases hreach : g'.goalsReachable = true
        · rw [if_neg (by simp [hreach])]
          rcases hextract : g'.extract with ⟨e | _ | plan, g''⟩
          · exact .unsearched hexpand hextract
          · dsimp only
            split
            · rename_i hnone
              exact .resumed hexpand hreach hextract (.inl (Option.isNone_iff_eq_none.1 hnone))
            · rename_i hsome
              split
              · rename_i hmore
                exact .resumed hexpand hreach hextract (.inr hmore)
              · rename_i hsame
                exact .settled hexpand hreach hextract
                  (fun hnone => hsome (Option.isNone_iff_eq_none.2 hnone)) (not_not.1 hsame)
          · exact .found hexpand hreach hextract (by omega)
        · rw [Bool.not_eq_true] at hreach
          rw [if_pos (by simp [hreach])]
          exact .unreached hexpand hreach

/-- When the budget is used up, the attempt ends. -/
theorem round_of_budget_le {g : Graph} (h : g.budget ≠ 0 ∧ g.budget ≤ g.layersBuilt) :
    g.round.1 = .done (g.result .budgetExhausted none) ∧ g.round.2.2 = g := by
  rw [round, if_pos h]
  exact ⟨rfl, rfl⟩

/-- A search that fails was started: there is a level, and the goals are reachable there. -/
theorem goalsReachable_of_extract_eq_error {g g' : Graph} {e : GraphError}
    (h : g.extract = (.error e, g')) (hlevels : g.levels ≠ []) : g.goalsReachable = true := by
  by_contra hreach
  rw [extract, if_neg (by simpa using hlevels), if_pos (by simpa using hreach)] at h
  cases h

/-- **No round ends in two ways**, if its budget is not used up. -/
theorem RoundEnds.eq_round {g after : Graph} {last : Round} (h : g.RoundEnds last after)
    (hbudget : ¬(g.budget ≠ 0 ∧ g.budget ≤ g.layersBuilt)) :
    g.round.1 = last ∧ g.round.2.2 = after := by
  rw [round, if_neg hbudget]
  cases h with
  | exhausted hne hle => exact absurd ⟨hne, hle⟩ hbudget
  | stuck hexpand => simp [hexpand]
  | closed hexpand => simp [hexpand]
  | unreached hexpand hreach => simp [hexpand, hreach]
  | unsearched hexpand hextract =>
    have hreach := goalsReachable_of_extract_eq_error hextract (by
      obtain ⟨_, _, _, -, -, -, rfl, -⟩ := expand_eq_ok hexpand
      exact List.cons_ne_nil _ _)
    simp [hexpand, hreach, hextract]
  | found hexpand hreach hextract => simp [hexpand, hreach, hextract]
  | resumed hexpand hreach hextract hmore =>
    cases hfixed : after.fixedPoint with
    | none => simp [hexpand, hreach, hextract, hfixed]
    | some number =>
      simp [hexpand, hreach, hextract, hfixed, hmore.resolve_left (by simp [hfixed])]
  | settled hexpand hreach hextract hfixed hsame =>
    simp [hexpand, hreach, hextract, hfixed, hsame]

/-! ### Many rounds -/

/-- A round on the first graph is to be followed by another one, on the second graph. -/
def Again (g h : Graph) : Prop := g.round.1 = .again ∧ g.round.2.2 = h

theorem Again.roundEnds {g h : Graph} (hgh : g.Again h) : g.RoundEnds .again h := by
  have hends := g.roundEnds
  rwa [hgh.1, hgh.2] at hends

theorem rounds_of_again {g h : Graph} (hgh : g.Again h) (n : Nat) :
    (g.rounds (n + 1)).1 = (h.rounds n).1 ∧ (g.rounds (n + 1)).2.2 = (h.rounds n).2.2 := by
  obtain ⟨hagain, rfl⟩ := hgh
  rw [rounds]
  rcases hround : g.round with ⟨last, report, h⟩
  rw [hround] at hagain
  obtain rfl : last = .again := hagain
  exact ⟨rfl, rfl⟩

theorem rounds_of_round {g : Graph} (hround : g.round.1 ≠ .again) (n : Nat) :
    (g.rounds (n + 1)).1 = g.round.1 ∧ (g.rounds (n + 1)).2.2 = g.round.2.2 := by
  rw [rounds]
  rcases hg : g.round with ⟨last, report, h⟩
  rw [hg] at hround
  cases last with
  | again => exact absurd rfl hround
  | done r => exact ⟨rfl, rfl⟩
  | failed e => exact ⟨rfl, rfl⟩

/-- Rounds up to a decision: all but the last one are to be followed by another. -/
theorem exists_of_rounds {n : Nat} : ∀ {g : Graph}, (g.rounds n).1 ≠ .again →
    ∃ h, ReflTransGen Again g h ∧ h.round.1 = (g.rounds n).1 ∧ h.round.2.2 = (g.rounds n).2.2 := by
  induction n with
  | zero => exact fun h => absurd rfl h
  | succ n ih =>
    intro g hn
    by_cases hround : g.round.1 = .again
    · have hagain : g.Again g.round.2.2 := ⟨hround, rfl⟩
      obtain ⟨hlast, hgraph⟩ := rounds_of_again hagain n
      rw [hlast] at hn
      obtain ⟨h, hrun, hdone, hfinal⟩ := ih hn
      exact ⟨h, hrun.head hagain, hdone.trans hlast.symm, hfinal.trans hgraph.symm⟩
    · obtain ⟨hlast, hgraph⟩ := rounds_of_round hround n
      exact ⟨g, .refl, hlast.symm, hgraph.symm⟩

/-- Rounds that come to no decision. -/
theorem again_of_rounds {n : Nat} : ∀ {g : Graph}, (g.rounds n).1 = .again →
    ReflTransGen Again g (g.rounds n).2.2 := by
  induction n with
  | zero => exact fun _ => .refl
  | succ n ih =>
    intro g hn
    by_cases hround : g.round.1 = .again
    · have hagain : g.Again g.round.2.2 := ⟨hround, rfl⟩
      obtain ⟨hlast, hgraph⟩ := rounds_of_again hagain n
      rw [hlast] at hn
      rw [hgraph]
      exact (ih hn).head hagain
    · rw [(rounds_of_round hround n).1] at hn
      exact absurd hn hround

/-- Rounds that come to no decision raise whatever each of them raises. -/
theorem le_of_rounds_again {I : Graph → Prop} {measure : Graph → Nat}
    (hstep : ∀ g h, I g → g.Again h → I h ∧ measure g < measure h) {n : Nat} :
    ∀ {g : Graph}, I g → (g.rounds n).1 = .again →
      I (g.rounds n).2.2 ∧ measure g + n ≤ measure (g.rounds n).2.2 := by
  induction n with
  | zero => exact fun hg _ => ⟨hg, Nat.le_refl _⟩
  | succ n ih =>
    intro g hg hn
    by_cases hround : g.round.1 = .again
    · have hagain : g.Again g.round.2.2 := ⟨hround, rfl⟩
      obtain ⟨hlast, hgraph⟩ := rounds_of_again hagain n
      rw [hlast] at hn
      rw [hgraph]
      obtain ⟨hnext, hlt⟩ := hstep g _ hg hagain
      obtain ⟨hend, hle⟩ := ih hnext hn
      exact ⟨hend, by omega⟩
    · rw [(rounds_of_round hround n).1] at hn
      exact absurd hn hround

/-- More rounds, after some that come to no decision. -/
theorem rounds_add {m n : Nat} : ∀ {g : Graph}, (g.rounds m).1 = .again →
    (g.rounds (m + n)).1 = ((g.rounds m).2.2.rounds n).1 := by
  induction m with
  | zero =>
    intro g _
    rw [Nat.zero_add]
    rfl
  | succ m ih =>
    intro g hm
    by_cases hround : g.round.1 = .again
    · have hagain : g.Again g.round.2.2 := ⟨hround, rfl⟩
      obtain ⟨hlast, hgraph⟩ := rounds_of_again hagain m
      rw [hlast] at hm
      rw [hgraph, Nat.add_right_comm, (rounds_of_again hagain (m + n)).1, ih hm]
    · rw [(rounds_of_round hround m).1] at hm
      exact absurd hm hround

/-- Both parts of an attempt to solve. -/
theorem solve_eq {g : Graph} (hlevels : g.levels ≠ []) :
    ((g.rounds g.growthBound).1 ≠ .again ∧ g.solve.1 = (g.rounds g.growthBound).1 ∧
      g.solve.2.2 = (g.rounds g.growthBound).2.2) ∨
    ∃ h, (g.rounds g.growthBound).1 = .again ∧ (g.rounds g.growthBound).2.2 = h ∧
      g.solve.1 = (h.rounds h.settlingBound).1 ∧ g.solve.2.2 = (h.rounds h.settlingBound).2.2 := by
  rw [solve, if_neg (by simpa using hlevels)]
  rcases hrounds : g.rounds g.growthBound with ⟨last, report, h⟩
  cases last with
  | again => exact .inr ⟨h, rfl, rfl, rfl, rfl⟩
  | done r => exact .inl ⟨by simp, rfl, rfl⟩
  | failed e => exact .inl ⟨by simp, rfl, rfl⟩

/-- **How an attempt comes to its decision**: rounds that are to be followed by another one lead to
the round that decides. -/
theorem exists_round_of_solve {g : Graph} (hne : g.solve.1 ≠ .again) (hlevels : g.levels ≠ []) :
    ∃ before, ReflTransGen Again g before ∧ before.round.1 = g.solve.1 ∧
      before.round.2.2 = g.solve.2.2 := by
  rcases solve_eq hlevels with ⟨hrounds, hfirst, hgraph⟩ | ⟨_, hagain, rfl, hsecond, hgraph⟩
  · rw [hfirst, hgraph]
    exact exists_of_rounds hrounds
  · rw [hsecond] at hne ⊢
    rw [hgraph]
    obtain ⟨before, hrun, hround⟩ := exists_of_rounds hne
    exact ⟨before, (again_of_rounds hagain).trans hrun, hround⟩

theorem exists_of_solve {g : Graph} {r : PlanResult} (h : g.solve.1 = .done r) :
    ∃ before after, ReflTransGen Again g before ∧ before.RoundEnds (.done r) after := by
  have hlevels : g.levels ≠ [] := by
    intro hnil
    rw [solve, if_pos (by simp [hnil])] at h
    cases h
  obtain ⟨before, hrun, hround, -⟩ := exists_round_of_solve (by simp [h]) hlevels
  exact ⟨before, _, hrun, (hround.trans h) ▸ before.roundEnds⟩

/-- Rounds lead from a graph to one graph at a time. -/
theorem again_rightUnique : Relator.RightUnique Again :=
  fun _ _ _ h h' => h.2.symm.trans h'.2

/-- **There is one decision**: a round that is not to be followed by another one decides, whatever
bound is set on the number of rounds, if the attempt is decided at all. -/
theorem solve_eq_round {g h : Graph} (hne : g.solve.1 ≠ .again) (hlevels : g.levels ≠ [])
    (hrun : ReflTransGen Again g h) (hlast : h.round.1 ≠ .again) :
    g.solve.1 = h.round.1 ∧ g.solve.2.2 = h.round.2.2 := by
  obtain ⟨before, hbefore, hround, hgraph⟩ := exists_round_of_solve hne hlevels
  have hend : ∀ a b : Graph, a.round.1 ≠ .again → ReflTransGen Again a b → a = b := by
    intro a b ha hab
    rcases hab.cases_head with rfl | ⟨c, hac, -⟩
    · rfl
    · exact absurd hac.1 ha
  obtain rfl : before = h := by
    rcases hbefore.total_of_right_unique again_rightUnique hrun with hab | hba
    · exact hend _ _ (hround ▸ hne) hab
    · exact (hend _ _ hlast hba).symm
  exact ⟨hround.symm, hgraph.symm⟩

end Graph

/-! ### Loading a problem -/

namespace Fact

theorem literal_injective : Function.Injective literal := by
  intro f g h
  obtain ⟨hname, hterms⟩ := Literal.mk.inj h
  cases f
  cases g
  obtain rfl := List.map_injective_iff.2 (fun _ _ h => Term.const.inj h) hterms
  exact congrArg (Fact.mk · _) hname

theorem resolve_literal (f : Fact) (arena : Arena) : f.literal.resolve arena = f.literal := by
  rw [Literal.resolve, literal, List.map_map]
  rfl

theorem isGround_literal (f : Fact) {arena : Arena} : f.literal.isGround arena = true := by
  rw [Literal.isGround, literal, List.all_map]
  exact List.all_eq_true.2 fun _ _ => rfl

theorem isConstant_literal (f : Fact) {arena : Arena} : f.literal.isConstant arena = true := by
  rw [Literal.isConstant, literal, List.all_map]
  exact List.all_eq_true.2 fun _ _ => rfl

theorem fact?_literal (f : Fact) : f.literal.fact? .empty = some f := by
  have hvalues : ∀ arguments : List String, ((arguments.map some).mapM id) = some arguments := by
    intro arguments
    induction arguments with
    | nil => rfl
    | cons a rest ih =>
      rw [List.map_cons, List.mapM_cons, ih]
      rfl
  have hliteral : f.literal.values .empty = f.arguments.map some := by
    rw [Literal.values, literal, List.map_map]
    rfl
  rw [Literal.fact?, hliteral, hvalues]
  rfl

end Fact

theorem factsOf?_literals (facts : List Fact) : factsOf? (facts.map Fact.literal) = some facts := by
  induction facts with
  | nil => rfl
  | cons f rest ih =>
    rw [factsOf?] at ih ⊢
    rw [List.map_cons, List.mapM_cons, ih, f.fact?_literal]
    rfl

/-- Facts are looked up among literals as they are among facts. -/
theorem LiteralSet.contains_literals (arena : Arena) (facts : List Fact) (f : Fact) :
    (⟨facts.map Fact.literal⟩ : LiteralSet).contains arena f.literal = facts.contains f := by
  have hall : (facts.map Fact.literal).filter (·.isConstant arena) = facts.map Fact.literal :=
    List.filter_eq_self.2 fun l hl => by
      obtain ⟨g, -, rfl⟩ := List.mem_map.1 hl
      exact g.isConstant_literal
  have hnone : (facts.map Fact.literal).filter (fun l => !l.isConstant arena) = [] :=
    List.filter_eq_nil_iff.2 fun l hl => by
      obtain ⟨g, -, rfl⟩ := List.mem_map.1 hl
      simp [g.isConstant_literal]
  rw [LiteralSet.contains, LiteralSet.find?, hall, hnone, List.find?_nil, Option.or_none,
    List.isSome_find?, List.contains_eq_any_beq, List.any_map]
  refine congrArg (List.any facts) (funext fun g => Bool.eq_iff_iff.2 ?_)
  rw [Function.comp_apply, Literal.same, g.resolve_literal, f.resolve_literal, beq_iff_eq,
    beq_iff_eq, Fact.literal_injective.eq_iff, eq_comm]

namespace Problem

/-- The facts of a list, each once. -/
def eachOnce (facts : List Fact) : List Fact := facts.foldl insertFact []

theorem mem_eachOnce {facts : List Fact} {f : Fact} : f ∈ eachOnce facts ↔ f ∈ facts := by
  have key : ∀ gs : List Fact, f ∈ facts.foldl insertFact gs ↔ f ∈ gs ∨ f ∈ facts := by
    induction facts with
    | nil => intro gs; simp
    | cons g rest ih =>
      intro gs
      rw [List.foldl_cons, ih, insertFact, List.mem_cons, ← or_assoc]
      refine or_congr_left ?_
      split
      · rename_i hg
        exact ⟨.inl, fun h => h.elim id fun e => e ▸ List.contains_iff_mem.1 hg⟩
      · rw [List.mem_append, List.mem_singleton]
  rw [eachOnce, key]
  simp

/-- Facts stay facts when they are made a set of literals. -/
theorem ofList_literals (arena : Arena) (facts : List Fact) :
    LiteralSet.ofList arena (facts.map Fact.literal) = ⟨(eachOnce facts).map Fact.literal⟩ := by
  have key : ∀ gs : List Fact,
      (⟨gs.map Fact.literal⟩ : LiteralSet).insertMany arena (facts.map Fact.literal) =
        ⟨(facts.foldl insertFact gs).map Fact.literal⟩ := by
    induction facts with
    | nil => exact fun _ => rfl
    | cons f rest ih =>
      intro gs
      have hinsert : (⟨gs.map Fact.literal⟩ : LiteralSet).insert arena f.literal =
          ⟨(insertFact gs f).map Fact.literal⟩ := by
        rw [LiteralSet.insert, LiteralSet.contains_literals, insertFact]
        split
        · rfl
        · rw [List.map_append]
          rfl
      rw [List.map_cons, LiteralSet.insertMany, List.foldl_cons, hinsert]
      exact ih _
  exact key []

theorem isGround_literals (facts : List Fact) {arena : Arena} :
    (⟨facts.map Fact.literal⟩ : LiteralSet).isGround arena = true := by
  refine List.all_eq_true.2 fun l hl => ?_
  obtain ⟨f, -, rfl⟩ := List.mem_map.1 hl
  exact f.isGround_literal

/-- **A problem of regular schemas can be loaded**, and only a negative budget is refused. -/
theorem graph_eq {p : Problem} (hreg : ∀ s ∈ p.schemas, s.Regular) (strict : Bool) (budget : Int) :
    p.graph strict budget = if budget < 0 then .error (.negativeBudget budget) else
      .ok { strict
            budget := budget.toNat
            schemas := p.schemas
            goals := (eachOnce p.goals).map Fact.literal
            levels := [{ facts := .ofList (eachOnce p.initial) }] } := by
  have hinstance := Schema.find?_isInstance hreg
  rw [graph, Graph.create]
  split
  · rename_i e he
    split at he
    · rename_i hbudget
      cases he
      rw [if_pos hbudget]
    · cases he
  · rename_i g hg
    split at hg
    · cases hg
    · rename_i hbudget
      cases hg
      rw [if_neg hbudget]
      simp only [load, Graph.load, hinstance, isGround_literals, ofList_literals, factsOf?_literals,
        Bool.not_true, Bool.false_eq_true, if_false]

/-- The graph of a problem has the limit and the mode that were asked for. -/
theorem settings_of_graph {p : Problem} (hreg : ∀ s ∈ p.schemas, s.Regular) {strict : Bool}
    {budget : Int} {g : Graph} (h : p.graph strict budget = .ok g) :
    g.budget = budget.toNat ∧ g.strict = strict := by
  rw [graph_eq hreg] at h
  split at h
  · cases h
  · obtain rfl := Except.ok.inj h
    exact ⟨rfl, rfl⟩

/-- The decision about the problem of a text, if it comes to one. -/
def outcome? (text : String) (strict : Bool) (budget : Int) : Option PlanResult :=
  match parse text with
  | .error _ => none
  | .ok p =>
    match p.graph strict budget with
    | .error _ => none
    | .ok g =>
      match g.solve.1 with
      | .done r => some r
      | _ => none

theorem exists_of_outcome?_eq_some {text : String} {strict : Bool} {budget : Int} {r : PlanResult}
    (h : outcome? text strict budget = some r) :
    ∃ p g, parse text = .ok p ∧ p.graph strict budget = .ok g ∧ g.solve.1 = .done r := by
  rw [outcome?] at h
  split at h
  · cases h
  · rename_i p hp
    split at h
    · cases h
    · rename_i g hg
      split at h
      · rename_i s hs
        exact ⟨p, g, hp, hg, hs.trans (congrArg _ (Option.some.inj h))⟩
      · cases h

end Problem

end Strips
