import Strips.Proofs.Bounds
import Strips.Proofs.Exploration

/-!
# Attempts end

An attempt to solve repeats its round until one decides, and nothing in the code bounds the number
of rounds. Two quantities do. Up to the fixed point every level differs from the one before, so that
the pairs of facts that do not exclude each other become more, and they cannot become more than the
pairs of possible facts. From the fixed point on every round that does not decide records a no-good
at the level of the fixed point. These no-goods are sets of facts of that level, of which none
contains an earlier one, so there is an end to them too.

The end is an answer unless a round fails, and a round fails only at a fact that no step can keep.

## Main definitions

* `Graph.Bounded` – what bounds the number of rounds.
* `Graph.Ends` – what it means that an attempt ends.

## Main results

* `Graph.Explored.learns_of_again` – what a round records at the fixed point.
* `Graph.Explored.decision_of_rounds` – when the end is an answer.
* `Graph.ends` – every attempt ends.
-/

namespace Strips

open Relation

namespace Graph

/-! ### The invariant -/

/-- Up to the fixed point there are as many compatible pairs of facts as there are levels above the
initial one, and the no-goods of each level are sets of facts that it supports, none of which
contains an earlier one. -/
structure Bounded (g : Graph) : Prop where
  grown : g.fixedPoint = none → ∀ newest rest, g.levels = newest :: rest →
    rest.length ≤ newest.facts.compatiblePairs.card
  irredundant : ∀ level ∈ g.levels, Irredundant level.noGoods
  supported : ∀ level ∈ g.levels, ∀ noGood ∈ level.noGoods, level.facts.supports noGood = true

variable {g g' : Graph} {p : Problem} {goals : List Fact} {unsearched : Nat}

/-- An expansion keeps the bounds: a level that is not the fixed point has more compatible pairs. -/
theorem Bounded.expand (h : g.Bounded) (hx : g.Explored p goals 0) {grew : Bool}
    (hexpand : g.expand = (.ok grew, g')) : g'.Bounded := by
  obtain ⟨-, newest, rest, level, hlevels, hfollows, hnone, hlevels', -, -, hfixed, -⟩ :=
    hx.expand hexpand
  refine ⟨fun hn top below heq => ?_, ?_, ?_⟩
  · rw [hfixed, Option.or_eq_none_iff] at hn
    obtain ⟨hn, hsame⟩ := hn
    have hsame' : newest.facts.same level.facts = false := Bool.eq_false_iff.2 fun hs => by
      rw [if_pos hs] at hsame
      cases hsame
    obtain ⟨rfl, rfl⟩ := List.cons.inj (hlevels'.symm.trans heq)
    have hsound := hx.ladder.sound newest (hlevels ▸ List.mem_cons_self)
    have hlt := hfollows.below.card_compatiblePairs_lt hsound hfollows.sound hsame'
    have hle := h.grown hn newest rest hlevels
    rw [hlevels, List.length_cons]
    omega
  · rw [hlevels']
    refine List.forall_mem_cons.2 ⟨?_, h.irredundant⟩
    rw [hnone]
    exact .nil
  · rw [hlevels']
    refine List.forall_mem_cons.2 ⟨fun noGood hmem => ?_, h.supported⟩
    rw [hnone] at hmem
    cases hmem

/-- A search keeps the bounds: it adds no-goods that contain none of those that were there. -/
theorem Bounded.extract (h : g.Bounded) (hx : g.Explored p goals unsearched)
    (hreach : g.goalsReachable = true) {answer : Option (List Step)}
    (hextract : g.extract = (.ok answer, g')) : g'.Bounded := by
  obtain ⟨-, rfl⟩ := hx.extract hreach hextract
  have hlearns := hx.search_learns.1
  generalize (search Step.preconditions (stagesOf g.levels) goals g.noGoods).2 = noGoods at *
  have hlen := length_of_learns hlearns
  have horigin : ∀ level ∈ withNoGoods g.levels noGoods, ∃ (i : Nat) (old : Level),
      g.levels[i]? = some old ∧ level = { old with noGoods := noGoods.getD i [] } := by
    intro level hlevel
    obtain ⟨i, hi⟩ := List.getElem?_of_mem hlevel
    have hlt := (List.getElem?_eq_some_iff.1 hi).1
    rw [length_withNoGoods hlen] at hlt
    have hget := List.getElem?_eq_getElem hlt
    exact ⟨i, _, hget, Option.some.inj (hi.symm.trans (getElem?_withNoGoods hlen hget))⟩
  refine ⟨fun hn newest rest heq => ?_, fun level hlevel => ?_, fun level hlevel noGood hmem => ?_⟩
  · change withNoGoods g.levels noGoods = newest :: rest at heq
    obtain ⟨old, below, hlevels⟩ := List.exists_cons_of_ne_nil hx.ladder.ne_nil
    have hold : g.levels[0]? = some old := by rw [hlevels]; rfl
    have hget := getElem?_withNoGoods hlen hold
    have hlength := length_withNoGoods hlen
    rw [heq, hlevels] at hlength
    rw [heq] at hget
    obtain rfl := Option.some.inj hget
    exact Nat.succ.inj hlength ▸ h.grown hn old below hlevels
  · obtain ⟨i, old, hi, rfl⟩ := horigin level hlevel
    obtain ⟨new, -, -, hirr⟩ := hlearns.level i
    rw [getD_noGoods hi] at hirr
    exact hirr (h.irredundant old (List.mem_of_getElem? hi))
  · obtain ⟨i, old, hi, rfl⟩ := horigin level hlevel
    obtain ⟨new, heq, hnew, -⟩ := hlearns.level i
    rw [getD_noGoods hi] at heq
    rcases List.mem_append.1 (heq ▸ hmem) with hold | hold
    · exact h.supported old (List.mem_of_getElem? hi) noGood hold
    · obtain ⟨stage, hstage, hsupports, -⟩ := hnew noGood hold
      rw [stagesOf, List.getElem?_map, hi] at hstage
      obtain rfl := Option.some.inj hstage
      exact hsupports

theorem Bounded.again (h : g.Bounded) (hx : g.Explored p goals 0) (hgg : g.Again g') :
    g'.Bounded := by
  cases hgg.roundEnds with
  | unreached hexpand => exact h.expand hx hexpand
  | resumed hexpand hreach hextract =>
    exact (h.expand hx hexpand).extract (hx.expand hexpand).1 hreach hextract

/-! ### What one round does -/

namespace Explored

/-- A round builds one level and searches at most once. -/
theorem grows_of_again (hx : g.Explored p goals 0) (hgg : g.Again g') :
    g'.levels.length = g.levels.length + 1 ∧ g'.attempts ≤ g.attempts + 1 := by
  cases hgg.roundEnds with
  | unreached hexpand =>
    obtain ⟨newest, rest, level, -, -, -, rfl, -⟩ := expand_eq_ok hexpand
    exact ⟨rfl, Nat.le_succ _⟩
  | resumed hexpand hreach hextract =>
    have hnext := (hx.expand hexpand).1
    obtain ⟨newest, rest, level, -, -, -, rfl, -⟩ := expand_eq_ok hexpand
    refine ⟨(hnext.keeps_of_extract hreach hextract).2, ?_⟩
    obtain ⟨-, rfl⟩ := hnext.extract hreach hextract
    exact Nat.le_refl _

theorem layersBuilt_of_again (hx : g.Explored p goals 0) (hgg : g.Again g') :
    g'.layersBuilt = g.layersBuilt + 1 := by
  have hpos := List.length_pos_of_ne_nil hx.ladder.ne_nil
  rw [layersBuilt, layersBuilt, (hx.grows_of_again hgg).1]
  omega

/-- A round leaves the limit and the mode as they are. -/
theorem settings_of_again (hx : g.Explored p goals 0) (hgg : g.Again g') :
    g'.budget = g.budget ∧ g'.strict = g.strict := by
  cases hgg.roundEnds with
  | unreached hexpand =>
    obtain ⟨newest, rest, level, -, -, -, rfl, -⟩ := expand_eq_ok hexpand
    exact ⟨rfl, rfl⟩
  | resumed hexpand hreach hextract =>
    obtain ⟨-, rfl⟩ := (hx.expand hexpand).1.extract hreach hextract
    obtain ⟨newest, rest, level, -, -, -, rfl, -⟩ := expand_eq_ok hexpand
    exact ⟨rfl, rfl⟩

/-- **The round that reaches the fixed point leaves no-goods there**, unless it decides. -/
theorem learns_of_reached (hx : g.Explored p goals 0) (hgg : g.Again g') {number : Nat}
    (hn : g.fixedPoint = none) (hn' : g'.fixedPoint = some number) :
    ∃ level, g'.level? number = some level ∧ level.noGoods ≠ [] := by
  cases hgg.roundEnds with
  | unreached hexpand hreach =>
    obtain ⟨-, _, _, _, -, -, -, -, -, -, -, hgrew⟩ := hx.expand hexpand
    rw [hreach, hn'] at hgrew
    cases hgrew
  | @resumed middle _ hexpand hreach hextract hmore =>
    obtain ⟨hnext, _, _, level, -, -, hnone, hlevels, -, -, hnumber, -⟩ := hx.expand hexpand
    have hkeeps := (hnext.keeps_of_extract hreach hextract).1
    have hmiddle : middle.fixedPoint = some number := hkeeps.symm.trans hn'
    -- the fixed point is the level that was just built, which had no no-goods before the search
    rw [hn, Option.none_or] at hnumber
    rw [hnumber] at hmiddle
    split at hmiddle
    · obtain rfl := Option.some.inj hmiddle
      have hlevel : middle.level? g.levels.length = some level :=
        by
        rw [level?, hlevels, List.reverse_cons]
        simp
      obtain ⟨new, hnew⟩ := hnext.level?_of_extract hreach hextract hlevel
      refine ⟨_, hnew, fun hnil => ?_⟩
      rcases hmore with hmore | hmore
      · rw [hn'] at hmore
        cases hmore
      · refine hmore ?_
        rw [fixedPointNoGoods_eq hn' hnew, fixedPointNoGoods_eq (hkeeps.symm.trans hn') hlevel,
          hnil, hnone]
    · cases hmiddle

/-- **A round that follows the fixed point records a no-good there**, unless it decides. The level
of the fixed point stays as it is otherwise. -/
theorem learns_of_again (hx : g.Explored p goals 0) (hgg : g.Again g') {number : Nat}
    (hn : g.fixedPoint = some number) :
    g'.fixedPoint = some number ∧ ∃ level new, g.level? number = some level ∧ new ≠ [] ∧
      g'.level? number = some { level with noGoods := level.noGoods ++ new } := by
  obtain ⟨depth, fixed, before, hfixed, -⟩ := hx.demanded number hn
  cases hgg.roundEnds with
  | unreached hexpand hreach =>
    -- a graph that does not grow any more is not expanded again unless the goals are reachable
    obtain ⟨-, _, _, _, -, -, -, -, -, -, hnumber, hgrew⟩ := hx.expand hexpand
    rw [hreach, hnumber, hn] at hgrew
    cases hgrew
  | @resumed middle _ hexpand hreach hextract hmore =>
    obtain ⟨hnext, _, _, _, -, -, -, hlevels, -, -, hnumber, -⟩ := hx.expand hexpand
    have hlevel := level?_of_levels_eq_cons hlevels hfixed.level?_eq
    obtain ⟨new, hnew⟩ := hnext.level?_of_extract hreach hextract hlevel
    have hmiddle : middle.fixedPoint = some number := by rw [hnumber, hn, Option.some_or]
    have hlast := (hnext.keeps_of_extract hreach hextract).1.trans hmiddle
    refine ⟨hlast, fixed, new, hfixed.level?_eq, fun hnil => ?_, hnew⟩
    rcases hmore with hmore | hmore
    · rw [hlast] at hmore
      cases hmore
    · rw [fixedPointNoGoods_eq hlast hnew, fixedPointNoGoods_eq hmiddle hlevel, hnil,
        List.append_nil] at hmore
      exact hmore rfl

end Explored

/-! ### Many rounds -/

theorem Bounded.length_noGoods_le (h : g.Bounded) (hx : g.Explored p goals unsearched)
    {level : Level} (hlevel : level ∈ g.levels) :
    level.noGoods.length ≤ 2 ^ level.facts.facts.length := by
  refine (h.irredundant level hlevel).length_le fun noGood hmem => ?_
  exact ((hx.ladder.sound level hlevel).supports_iff.1 (h.supported level hlevel noGood hmem)).1

/-- **From the fixed point on, the rounds come to a decision** within the bound that is set. -/
theorem Explored.rounds_ne_again (hreg : ∀ s ∈ p.schemas, s.Regular) (hx : g.Explored p goals 0)
    (hb : g.Bounded) {number : Nat} (hn : g.fixedPoint = some number) :
    (g.rounds g.settlingBound).1 ≠ .again := by
  intro hagain
  obtain ⟨depth, fixed, before, hfixed, -⟩ := hx.demanded number hn
  have hstep : ∀ g h : Graph, (g.Explored p goals 0 ∧ g.Bounded ∧ g.fixedPoint = some number ∧
      ∃ level, g.level? number = some level ∧ level.facts = fixed.facts) → g.Again h →
      (h.Explored p goals 0 ∧ h.Bounded ∧ h.fixedPoint = some number ∧
        ∃ level, h.level? number = some level ∧ level.facts = fixed.facts) ∧
        g.fixedPointNoGoods < h.fixedPointNoGoods := by
    rintro g h ⟨hx, hb, hn, level, hlevel, hfacts⟩ hgh
    obtain ⟨hn', level', new, hlevel', hnew, hnext⟩ := hx.learns_of_again hgh hn
    obtain rfl := Option.some.inj (hlevel'.symm.trans hlevel)
    refine ⟨⟨hx.again hreg hgh, hb.again hx hgh, hn', _, hnext, hfacts⟩, ?_⟩
    rw [fixedPointNoGoods_eq hn hlevel, fixedPointNoGoods_eq hn' hnext, List.length_append]
    have hpos := List.length_pos_of_ne_nil hnew
    omega
  obtain ⟨⟨hx', hb', hn', level, hlevel, hfacts⟩, hle⟩ :=
    le_of_rounds_again hstep ⟨hx, hb, hn, fixed, hfixed.level?_eq, rfl⟩ hagain
  have hbound := hb'.length_noGoods_le hx' (List.mem_of_getElem? (getElem?_of_level?_eq hlevel).2)
  obtain ⟨newest, rest, hlevels⟩ := List.exists_cons_of_ne_nil hx.ladder.ne_nil
  have hsettling : g.settlingBound = 2 ^ fixed.facts.facts.length + 2 := by
    rw [settlingBound, hlevels, ← hfixed.length_facts_eq hreg hx.ladder hlevels]
    rfl
  rw [fixedPointNoGoods_eq hn' hlevel, hsettling] at hle
  rw [hfacts] at hbound
  omega

/-- **The fixed point is reached** before there are as many levels as the bound that is set. -/
theorem Bounded.layersBuilt_lt (h : g.Bounded) (hx : g.Explored p goals unsearched) {start : Graph}
    (hpossible : ∀ level ∈ g.levels, ∀ f ∈ level.facts.facts, f ∈ start.possibleFacts)
    (hn : g.fixedPoint = none) : g.layersBuilt < start.growthBound := by
  obtain ⟨newest, rest, hlevels⟩ := List.exists_cons_of_ne_nil hx.ladder.ne_nil
  have hgrown := h.grown hn newest rest hlevels
  have hpairs := FactLayer.card_compatiblePairs_le (hpossible newest (hlevels ▸ List.mem_cons_self))
  rw [length_possibleFacts] at hpairs
  rw [layersBuilt, hlevels, List.length_cons, growthBound]
  omega

theorem Bounded.reflTransGen (hreg : ∀ s ∈ p.schemas, s.Regular) (hx : g.Explored p goals 0)
    (h : g.Bounded) (hrun : ReflTransGen Again g g') : g'.Explored p goals 0 ∧ g'.Bounded := by
  induction hrun with
  | refl => exact ⟨hx, h⟩
  | tail _ hgh ih => exact ⟨ih.1.again hreg hgh, ih.2.again ih.1 hgh⟩

theorem Explored.settings_of_reflTransGen (hreg : ∀ s ∈ p.schemas, s.Regular)
    (hx : g.Explored p goals 0) (hrun : ReflTransGen Again g g') :
    g'.budget = g.budget ∧ g'.strict = g.strict := by
  induction hrun with
  | refl => exact ⟨rfl, rfl⟩
  | tail hrun hgh ih =>
    obtain ⟨hbudget, hstrict⟩ := (hx.reflTransGen hreg hrun).settings_of_again hgh
    exact ⟨hbudget.trans ih.1, hstrict.trans ih.2⟩

/-- **The decision is an answer**, unless some level holds a fact that no step can keep. -/
theorem Explored.done_of_rounds (hreg : ∀ s ∈ p.schemas, s.Regular) (hx : g.Explored p goals 0)
    {count : Nat} (hne : (g.rounds count).1 ≠ .again) :
    (∃ r, (g.rounds count).1 = .done r ∧ (g.budget = 0 → r.status ≠ .budgetExhausted)) ∨
      ∃ h, ReflTransGen Again g h ∧ ∃ level ∈ h.levels, ∃ f ∈ level.facts.facts,
        f.name = distinctName ∧ ∃ arity, arity ≠ 2 ∧
          (g.rounds count).1 = .failed (.layer (.schema (.distinctArity noopName arity))) := by
  obtain ⟨h, hrun, hround, -⟩ := exists_of_rounds hne
  have hx' := hx.reflTransGen hreg hrun
  have hends := h.roundEnds
  rw [hround] at hends
  generalize (g.rounds count).1 = last at hne hends
  generalize h.round.2.2 = after at hends
  cases hends with
  | exhausted hlimit =>
    exact .inl ⟨_, rfl, fun hbudget _ =>
      hlimit ((hx.settings_of_reflTransGen hreg hrun).1.trans hbudget)⟩
  | stuck hexpand =>
    obtain ⟨level, hlevel, f, hf, hname, arity, harity, rfl⟩ := hx'.expand_eq_error hreg hexpand
    exact .inr ⟨h, hrun, level, hlevel, f, hf, hname, arity, harity, rfl⟩
  | closed => exact .inl ⟨_, rfl, fun _ => PlanStatus.noConfusion⟩
  | unreached => exact absurd rfl hne
  | unsearched hexpand hextract =>
    obtain ⟨answer, _, hanswer⟩ := (hx'.expand hexpand).1.exists_extract
    cases hextract.symm.trans hanswer
  | found => exact .inl ⟨_, rfl, fun _ => PlanStatus.noConfusion⟩
  | resumed => exact absurd rfl hne
  | settled => exact .inl ⟨_, rfl, fun _ => PlanStatus.noConfusion⟩

/-- Without a limit it is not that the limit was reached. -/
theorem Explored.decision_of_rounds (hreg : ∀ s ∈ p.schemas, s.Regular) (hx : g.Explored p goals 0)
    (hbudget : g.budget = 0) {count : Nat} (hne : (g.rounds count).1 ≠ .again) :
    (∃ r, (g.rounds count).1 = .done r ∧ r.status ≠ .budgetExhausted) ∨
      ∃ h, ReflTransGen Again g h ∧ ∃ level ∈ h.levels, ∃ f ∈ level.facts.facts,
        f.name = distinctName ∧ ∃ arity, arity ≠ 2 ∧
          (g.rounds count).1 = .failed (.layer (.schema (.distinctArity noopName arity))) :=
  (hx.done_of_rounds hreg hne).imp_left fun ⟨r, hr, hstatus⟩ => ⟨r, hr, hstatus hbudget⟩

/-- If the number of levels before the fixed point is bounded, then as many undecided rounds have
reached it. -/
theorem Explored.fixedPoint_ne_none (hreg : ∀ s ∈ p.schemas, s.Regular) (hx : g.Explored p goals 0)
    {bound : Nat} (hfixed : ∀ g', ReflTransGen Again g g' → g'.fixedPoint = none →
      g'.layersBuilt < bound) {count : Nat} (hcount : bound ≤ count)
    (hagain : (g.rounds count).1 = .again) : (g.rounds count).2.2.fixedPoint ≠ none := by
  have hstep : ∀ h h' : Graph, h.Explored p goals 0 → h.Again h' →
      h'.Explored p goals 0 ∧ h.levels.length < h'.levels.length := by
    intro h h' hx hgh
    refine ⟨hx.again hreg hgh, ?_⟩
    rw [(hx.grows_of_again hgh).1]
    exact Nat.lt_succ_self _
  have hlength := (le_of_rounds_again hstep hx hagain).2
  have hpos := List.length_pos_of_ne_nil hx.ladder.ne_nil
  intro hn
  have hlt := hfixed _ (again_of_rounds hagain) hn
  rw [layersBuilt] at hlt
  omega

/-- If the fixed point is reached in the first part of an attempt, then the second part decides. -/
theorem Bounded.exists_rounds_eq (hreg : ∀ s ∈ p.schemas, s.Regular) (hx : g.Explored p goals 0)
    (h : g.Bounded) (hfixed : ∀ g', ReflTransGen Again g g' → g'.fixedPoint = none →
      g'.layersBuilt < g.growthBound) :
    ∃ count, (g.rounds count).1 ≠ .again ∧ g.solve.1 = (g.rounds count).1 := by
  rcases solve_eq hx.ladder.ne_nil with ⟨hne, hfirst, -⟩ | ⟨middle, hagain, rfl, hsecond, -⟩
  · exact ⟨g.growthBound, hne, hfirst⟩
  · have hrun := again_of_rounds hagain
    obtain ⟨hx', h'⟩ := h.reflTransGen hreg hx hrun
    obtain ⟨number, hn⟩ := Option.ne_none_iff_exists'.1
      (hx.fixedPoint_ne_none hreg hfixed le_rfl hagain)
    refine ⟨g.growthBound + (g.rounds g.growthBound).2.2.settlingBound, ?_, ?_⟩
    · rw [rounds_add hagain]
      exact hx'.rounds_ne_again hreg h' hn
    · rw [rounds_add hagain, hsecond]

/-- What it means that an attempt on a graph ends. -/
structure Ends (g : Graph) : Prop where
  /-- After a number of rounds there is a decision, and the attempt is decided so. -/
  decided : ∃ count, (g.rounds count).1 ≠ .again ∧ g.solve.1 = (g.rounds count).1
  /-- The decision is an answer, unless there is a fact that no step can keep. -/
  decision : (∃ r, g.solve.1 = .done r ∧ r.status ≠ .budgetExhausted) ∨
    ∃ arity, arity ≠ 2 ∧ g.solve.1 = .failed (.layer (.schema (.distinctArity noopName arity)))
  /-- A round builds one level and searches at most once. -/
  grows : ∀ h h', ReflTransGen Again g h → h.Again h' →
    h'.layersBuilt = h.layersBuilt + 1 ∧ h'.attempts ≤ h.attempts + 1
  /-- Every search that is started comes to an answer. -/
  answered : ∀ h h' grew, ReflTransGen Again g h → h.expand = (.ok grew, h') →
    ∃ answer h'', h'.extract = (.ok answer, h'')
  /-- The number of levels before the fixed point is bounded. -/
  fixed : ∀ h, ReflTransGen Again g h → h.fixedPoint = none → h.layersBuilt < g.growthBound
  /-- So the fixed point is set after that many rounds, unless there was a decision before. -/
  reached : ∀ count, g.growthBound ≤ count → (g.rounds count).1 = .again →
    (g.rounds count).2.2.fixedPoint ≠ none
  /-- The round that reaches the fixed point leaves no-goods there, unless it decides. -/
  learnsFirst : ∀ h h' number, ReflTransGen Again g h → h.Again h' → h.fixedPoint = none →
    h'.fixedPoint = some number → ∃ level, h'.level? number = some level ∧ level.noGoods ≠ [] ∧
      Irredundant level.noGoods ∧ level.noGoods.length ≤ 2 ^ level.facts.facts.length
  /-- After the fixed point each round that does not decide adds to the no-goods of its level, of
  which none contains an earlier one, so that their number is bounded. -/
  learns : ∀ h h' number, ReflTransGen Again g h → h.Again h' → h.fixedPoint = some number →
    ∃ level new, h.level? number = some level ∧ new ≠ [] ∧
      h'.level? number = some { level with noGoods := level.noGoods ++ new } ∧
      Irredundant (level.noGoods ++ new) ∧
      (level.noGoods ++ new).length ≤ 2 ^ level.facts.facts.length

end Graph

/-- The bounds when a problem was loaded. -/
theorem Problem.bounded_of_graph {p : Problem} (hreg : ∀ s ∈ p.schemas, s.Regular) {strict : Bool}
    {budget : Int} {g : Graph} (h : p.graph strict budget = .ok g) :
    g.Bounded ∧ ∀ f ∈ p.initial, f ∈ g.newestFacts := by
  rw [graph_eq hreg] at h
  split at h
  · cases h
  · obtain rfl := Except.ok.inj h
    refine ⟨⟨fun _ newest rest heq => ?_, ?_, ?_⟩, fun f hf => ?_⟩
    · obtain ⟨-, rfl⟩ := List.cons.inj heq
      exact Nat.zero_le _
    · exact List.forall_mem_singleton.2 .nil
    · exact List.forall_mem_singleton.2 fun _ hmem => absurd hmem List.not_mem_nil
    · exact FactLayer.mem_ofList.2 (mem_eachOnce.2 hf)

/-- **An attempt comes to a decision**, whatever its limit is: there is one after a number of
rounds, and the attempt is decided so. -/
theorem Problem.exists_rounds_eq {p : Problem} (hreg : ∀ s ∈ p.schemas, s.Regular) {strict : Bool}
    {budget : Int} {g : Graph} (h : p.graph strict budget = .ok g) :
    ∃ count, (g.rounds count).1 ≠ .again ∧ g.solve.1 = (g.rounds count).1 := by
  have hstart := explored_of_graph hreg h
  obtain ⟨hbounded, hinitial⟩ := bounded_of_graph hreg h
  refine hbounded.exists_rounds_eq hreg hstart fun h hrun hn => ?_
  obtain ⟨hx, hb⟩ := hbounded.reflTransGen hreg hstart hrun
  exact hb.layersBuilt_lt hx (fun level hlevel f hf =>
    (hx.ladder.mem_possibleFacts hreg hstart.schemas_eq hinitial level hlevel f hf).1) hn

/-- The round that decides is found by following the rounds, wherever their number is bounded. -/
theorem Problem.solve_eq_round {p : Problem} (hreg : ∀ s ∈ p.schemas, s.Regular) {strict : Bool}
    {budget : Int} {g h : Graph} (hg : p.graph strict budget = .ok g)
    (hrun : ReflTransGen Graph.Again g h) (hlast : h.round.1 ≠ .again) :
    g.solve.1 = h.round.1 ∧ g.solve.2.2 = h.round.2.2 := by
  obtain ⟨count, hne, hsolve⟩ := exists_rounds_eq hreg hg
  exact Graph.solve_eq_round (hsolve ▸ hne) (explored_of_graph hreg hg).ladder.ne_nil hrun hlast

/-- **An attempt ends with an answer**, whatever its limit is, if the name of the constraints is
used for nothing else. -/
theorem Problem.exists_done {p : Problem} (hreg : ∀ s ∈ p.schemas, s.Regular)
    (hd : p.ReservesDistinct) {strict : Bool} {budget : Int} {g : Graph}
    (h : p.graph strict budget = .ok g) : ∃ r, g.solve.1 = .done r := by
  have hstart := explored_of_graph hreg h
  obtain ⟨count, hne, hsolve⟩ := exists_rounds_eq hreg h
  rcases hstart.done_of_rounds hreg hne with ⟨r, hr, -⟩ | ⟨h, hrun, level, hlevel, f, hf, hname, -⟩
  · exact ⟨r, hsolve.trans hr⟩
  · exact absurd hname
      ((hstart.reflTransGen hreg hrun).ladder.name_ne_distinct hreg hd level hlevel f hf)

namespace Graph

/-- **Every attempt without a limit ends**, in either mode. It ends with an answer if the name of
the constraints is used for nothing else. -/
theorem ends {text : String} {p : Problem} (hp : Problem.parse text = .ok p) (strict : Bool) :
    ∃ g, p.graph strict 0 = .ok g ∧ g.Ends ∧
      (p.ReservesDistinct → ∃ r, g.solve.1 = .done r ∧ r.status ≠ .budgetExhausted) := by
  have hreg := Problem.regular_of_parse hp
  obtain ⟨g, hg, hbudget⟩ : ∃ g, p.graph strict 0 = .ok g ∧ g.budget = 0 :=
    ⟨_, Problem.graph_eq hreg strict 0, rfl⟩
  have hstart := Problem.explored_of_graph hreg hg
  obtain ⟨hbounded, hinitial⟩ := Problem.bounded_of_graph hreg hg
  have hafter : ∀ h, ReflTransGen Again g h →
      h.Explored p (Problem.eachOnce p.goals) 0 ∧ h.Bounded :=
    fun _ hrun => hbounded.reflTransGen hreg hstart hrun
  have hfixed : ∀ h, ReflTransGen Again g h → h.fixedPoint = none →
      h.layersBuilt < g.growthBound := by
    intro h hrun hn
    obtain ⟨hx, hb⟩ := hafter h hrun
    exact hb.layersBuilt_lt hx (fun level hlevel f hf =>
      (hx.ladder.mem_possibleFacts hreg hstart.schemas_eq hinitial level hlevel f hf).1) hn
  obtain ⟨count, hne, hsolve⟩ := hbounded.exists_rounds_eq hreg hstart hfixed
  have hdecision := hstart.decision_of_rounds hreg hbudget hne
  rw [← hsolve] at hdecision
  refine ⟨g, hg, ⟨⟨count, hne, hsolve⟩, ?_, fun h h' hrun hgh => ?_,
    fun h h' grew hrun hexpand => ?_, hfixed,
    fun count => hstart.fixedPoint_ne_none hreg hfixed,
    fun h h' number hrun hgh hn hn' => ?_, fun h h' number hrun hgh hn => ?_⟩, fun hd => ?_⟩
  · refine hdecision.imp id ?_
    rintro ⟨-, -, -, -, -, -, -, hfailed⟩
    exact hfailed
  · obtain ⟨hx, -⟩ := hafter h hrun
    obtain ⟨hlength, hattempts⟩ := hx.grows_of_again hgh
    have hpos := List.length_pos_of_ne_nil hx.ladder.ne_nil
    refine ⟨?_, hattempts⟩
    rw [layersBuilt, layersBuilt, hlength]
    omega
  · exact ((hafter h hrun).1.expand hexpand).1.exists_extract
  · obtain ⟨hx, hb⟩ := hafter h hrun
    obtain ⟨level, hlevel, hnew⟩ := hx.learns_of_reached hgh hn hn'
    have hmem := List.mem_of_getElem? (getElem?_of_level?_eq hlevel).2
    have hb' := hb.again hx hgh
    exact ⟨level, hlevel, hnew, hb'.irredundant _ hmem,
      hb'.length_noGoods_le (hx.again hreg hgh) hmem⟩
  · obtain ⟨hx, hb⟩ := hafter h hrun
    obtain ⟨-, level, new, hlevel, hnew, hnext⟩ := hx.learns_of_again hgh hn
    have hmem := List.mem_of_getElem? (getElem?_of_level?_eq hnext).2
    have hb' := hb.again hx hgh
    exact ⟨level, new, hlevel, hnew, hnext, hb'.irredundant _ hmem,
      hb'.length_noGoods_le (hx.again hreg hgh) hmem⟩
  · refine hdecision.resolve_right ?_
    rintro ⟨h, hrun, level, hlevel, f, hf, hname, -⟩
    exact (hafter h hrun).1.ladder.name_ne_distinct hreg hd level hlevel f hf hname

/-- Two coins and three things to buy, of which the third can be paid with either coin. -/
def twoCoinsText : String :=
  "a :: c => x, not c. b :: d => y, not d. e :: c => z, not c. f :: d => z, not d." ++
  "c. d. goal x. goal y. goal z."

/-- Whether another round is needed. -/
def Round.isAgain : Round → Bool
  | .again => true
  | .done _ | .failed _ => false

theorem Round.isAgain_iff {r : Round} : r.isAgain = true ↔ r = .again := by
  cases r <;> simp [isAgain]

/-- Any two of the things can be had together, so that the search has to find out that three cannot.
The attempt ends with an answer, and a round that follows the fixed point records no-goods there. -/
theorem ends_twoCoins : ∃ p, Problem.parse twoCoinsText = .ok p ∧ p.ReservesDistinct ∧
    ∀ strict, ∃ g, p.graph strict 0 = .ok g ∧ g.Ends ∧
      (∃ r, g.solve.1 = .done r ∧ r.status ≠ .budgetExhausted) ∧
      ∃ h h' number level new, ReflTransGen Again g h ∧ h.Again h' ∧ h.fixedPoint = some number ∧
        h.level? number = some level ∧ new ≠ [] ∧
        h'.level? number = some { level with noGoods := level.noGoods ++ new } := by
  have hread : (Problem.parse twoCoinsText).toOption.any (fun p => p.ReservesDistinct) = true := by
    decide +kernel
  have hlate : ∀ strict, (Problem.graphAfter? twoCoinsText strict []).any (fun g =>
      let ended := g.rounds (if strict then 2 else 3)
      ended.1.isAgain && ended.2.2.fixedPoint.isSome && ended.2.2.round.1.isAgain) = true := by
    intro strict
    cases strict <;> decide +kernel
  cases hp : Problem.parse twoCoinsText with
  | error e =>
    rw [hp] at hread
    cases hread
  | ok p =>
    rw [hp] at hread
    have hd : p.ReservesDistinct := of_decide_eq_true hread
    refine ⟨p, rfl, hd, fun strict => ?_⟩
    obtain ⟨g, hg, hends, hanswer⟩ := ends hp strict
    refine ⟨g, hg, hends, hanswer hd, ?_⟩
    obtain ⟨g', hg', hlate⟩ := (Option.any_eq_true _ _).1 (hlate strict)
    obtain ⟨p', g'', hp', hg'', rfl⟩ := Problem.exists_of_graphAfter?_eq_some hg'
    obtain rfl := Except.ok.inj (hp.symm.trans hp')
    obtain rfl := Except.ok.inj (hg.symm.trans hg'')
    obtain ⟨hbefore, hagain⟩ := Bool.and_eq_true_iff.1 hlate
    obtain ⟨hrounds, hfixed⟩ := Bool.and_eq_true_iff.1 hbefore
    have hrun := again_of_rounds (Round.isAgain_iff.1 hrounds)
    obtain ⟨number, hnumber⟩ := Option.isSome_iff_exists.1 hfixed
    obtain ⟨level, new, hlevel, hnew, hnext, -⟩ :=
      hends.learns _ _ number hrun ⟨Round.isAgain_iff.1 hagain, rfl⟩ hnumber
    exact ⟨_, _, number, level, new, hrun, ⟨Round.isAgain_iff.1 hagain, rfl⟩, hnumber, hlevel, hnew,
      hnext⟩

end Graph

end Strips
