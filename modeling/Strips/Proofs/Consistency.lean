import Strips.Proofs.Ladder
import Strips.Proofs.Rounds

/-!
# What expansions and searches keep

A graph on which a problem was loaded can be expanded and searched in any order and any number of
times, also after a search that found a plan and after an expansion that failed. Whatever is done,
the levels form a ladder, all no-goods are sealed, and the level of the fixed point is the same as
its predecessor. An expansion changes nothing if it fails, and it fails only at a fact that no step
can keep.

From a level that is the same as its predecessor on, no level differs from the one before, since a
level that is derived from the same layer is the same.

## Main definitions

* `Built` – levels as they were built one over the other.
* `Graph.IsFixed` – the level of the fixed point, and where it stands.
* `Graph.Consistent` – what any expansion and any search keep.
* `Graph.Call`, `Graph.calls` – expansions and searches, one after the other.

## Main results

* `Graph.IsFixed.below_before`, `Graph.IsFixed.agrees` – from the fixed point on levels do not
  differ.
* `Graph.Consistent.expand`, `Graph.Consistent.expand_eq_error`, `Graph.Consistent.extract` – what
  one expansion and one search do.
* `Graph.Consistent.calls` – what any number of them keeps.
-/

namespace Strips

open Relation

/-! ### Levels with other no-goods -/

section WithNoGoods

variable {levels : List Level} {noGoods : NoGoods Fact}

theorem length_withNoGoods (h : noGoods.length = levels.length) :
    (withNoGoods levels noGoods).length = levels.length := by
  rw [withNoGoods, List.length_zipWith, h, Nat.min_self]

theorem noGoods_withNoGoods (h : noGoods.length = levels.length) :
    (withNoGoods levels noGoods).map Level.noGoods = noGoods := by
  rw [withNoGoods, List.map_zipWith]
  induction levels generalizing noGoods with
  | nil => rw [List.eq_nil_of_length_eq_zero h]; rfl
  | cons level rest ih =>
    cases noGoods with
    | nil => cases h
    | cons own older => exact congrArg (own :: ·) (ih (Nat.succ.inj h))

theorem stagesOf_withNoGoods (h : noGoods.length = levels.length) :
    stagesOf (withNoGoods levels noGoods) = stagesOf levels := by
  rw [stagesOf, withNoGoods, List.map_zipWith]
  induction levels generalizing noGoods with
  | nil => rfl
  | cons level rest ih =>
    cases noGoods with
    | nil => cases h
    | cons own older => exact congrArg (level.stage :: ·) (ih (Nat.succ.inj h))

theorem getElem?_withNoGoods (h : noGoods.length = levels.length) {i : Nat} {level : Level}
    (hlevel : levels[i]? = some level) :
    (withNoGoods levels noGoods)[i]? = some { level with noGoods := noGoods.getD i [] } := by
  have hlt : i < noGoods.length := h ▸ (List.getElem?_eq_some_iff.1 hlevel).1
  rw [withNoGoods, List.getElem?_zipWith, hlevel, List.getD_eq_getElem?_getD,
    List.getElem?_eq_getElem hlt]
  rfl

end WithNoGoods

/-! ### Levels as they were built -/

/-- Levels, newest first, each built over the one before, and the initial one as it is loaded. -/
inductive Built (p : Problem) (strict : Bool) : List Level → Prop
  | start {level : Level} (hfacts : level.facts = .ofList (Problem.eachOnce p.initial))
      (hactions : level.actions = none) : Built p strict [level]
  | step {newer older : Level} {rest : List Level} (h : newer.Derives p.schemas strict older)
      (hrest : Built p strict (older :: rest)) : Built p strict (newer :: older :: rest)

namespace Built

variable {p : Problem} {strict : Bool} {levels : List Level}

/-- **Levels that were built form a ladder.** -/
theorem ladder (h : Built p strict levels) : Ladder p strict levels := by
  induction h with
  | start hfacts hactions =>
    refine .start (hfacts ▸ FactLayer.sound_ofList _) (fun f => ?_) (fun f g => ?_) hactions
    · rw [hfacts, FactLayer.mem_ofList, Problem.mem_eachOnce]
    · rw [hfacts, FactLayer.isMutex_ofList]
  | step hderives _ ih => exact .step (hderives.follows (ih.sound _ List.mem_cons_self)) ih

theorem derives (h : Built p strict levels) {i : Nat} {newer older : Level}
    (hi : levels[i]? = some newer) (hi' : levels[i + 1]? = some older) :
    newer.Derives p.schemas strict older := by
  induction h generalizing i with
  | start => cases hi'
  | step hderives _ ih =>
    cases i with
    | zero =>
      cases hi
      cases hi'
      exact hderives
    | succ i => exact ih hi hi'

theorem withNoGoods (h : Built p strict levels) : ∀ {noGoods : NoGoods Fact},
    noGoods.length = levels.length → Built p strict (withNoGoods levels noGoods) := by
  induction h with
  | start hfacts hactions =>
    intro noGoods hlen
    obtain ⟨own, rfl⟩ := List.length_eq_one_iff.1 hlen
    exact .start hfacts hactions
  | step hderives _ ih =>
    intro noGoods hlen
    match noGoods, hlen with
    | own :: next :: older, hlen => exact .step hderives (ih (Nat.succ.inj hlen))

end Built

namespace Graph

/-! ### Levels by number -/

/-- An expansion leaves the levels as they are. -/
theorem level?_of_levels_eq_cons {g g' : Graph} {newest : Level}
    (h : g'.levels = newest :: g.levels) {number : Nat} {level : Level}
    (hlevel : g.level? number = some level) :
    g'.level? number = some level := by
  have hlt := (List.getElem?_eq_some_iff.1 hlevel).1
  rw [level?, h, List.reverse_cons, List.getElem?_append_left hlt]
  exact hlevel

theorem exists_level?_of_lt {g : Graph} {number : Nat} (h : number < g.levels.length) :
    ∃ level, g.level? number = some level :=
  ⟨_, List.getElem?_eq_getElem (by rwa [List.length_reverse])⟩

theorem getElem?_of_level?_eq {g : Graph} {number : Nat} {level : Level}
    (h : g.level? number = some level) :
    number < g.levels.length ∧ g.levels[g.levels.length - 1 - number]? = some level := by
  have hlt := (List.getElem?_eq_some_iff.1 h).1
  rw [List.length_reverse] at hlt
  rw [level?, List.getElem?_reverse hlt] at h
  exact ⟨hlt, h⟩

theorem level?_withNoGoods {g g' : Graph} {noGoods : NoGoods Fact}
    (hlen : noGoods.length = g.levels.length) (h : g'.levels = withNoGoods g.levels noGoods)
    {number : Nat} {level : Level} (hlevel : g.level? number = some level) :
    g'.level? number =
      some { level with noGoods := noGoods.getD (g.levels.length - 1 - number) [] } := by
  obtain ⟨hlt, hget⟩ := getElem?_of_level?_eq hlevel
  have hlt' : number < g'.levels.length := by rwa [h, length_withNoGoods hlen]
  rw [level?, List.getElem?_reverse hlt', h, length_withNoGoods hlen,
    getElem?_withNoGoods hlen hget]

theorem fixedPointNoGoods_eq {g : Graph} {number : Nat} (hn : g.fixedPoint = some number)
    {level : Level} (hlevel : g.level? number = some level) :
    g.fixedPointNoGoods = level.noGoods.length := by
  rw [fixedPointNoGoods, hn, Option.bind_some, hlevel]
  rfl

/-! ### The fixed point -/

/-- The level of the fixed point stands at a depth below the newest level, and its predecessor has
the same facts and exclusions. -/
structure IsFixed (g : Graph) (number depth : Nat) (fixed before : Level) : Prop where
  length_eq : depth + number + 1 = g.levels.length
  get_fixed : g.levels[depth]? = some fixed
  get_before : g.levels[depth + 1]? = some before
  same : before.facts.same fixed.facts = true

namespace IsFixed

variable {g : Graph} {p : Problem} {number depth : Nat} {fixed before : Level}

/-- The number of a fixed point is the one by which its level is found. -/
theorem level?_eq (h : g.IsFixed number depth fixed before) : g.level? number = some fixed := by
  have hlen := h.length_eq
  have hlt : number < g.levels.length := by omega
  have hdepth : g.levels.length - 1 - number = depth := by omega
  rw [level?, List.getElem?_reverse hlt, hdepth, h.get_fixed]

/-- Below a new level the fixed point stands one level deeper. -/
theorem cons (h : g.IsFixed number depth fixed before) {g' : Graph} {newest : Level}
    (hlevels : g'.levels = newest :: g.levels) : g'.IsFixed number (depth + 1) fixed before := by
  refine ⟨?_, hlevels ▸ h.get_fixed, hlevels ▸ h.get_before, h.same⟩
  have hlen := h.length_eq
  rw [hlevels, List.length_cons]
  omega

/-- A newest level that is the same as its predecessor is the fixed point. -/
theorem of_same {rest : List Level} (hlevels : g.levels = fixed :: before :: rest)
    (hsame : before.facts.same fixed.facts = true) :
    g.IsFixed (before :: rest).length 0 fixed before := by
  refine ⟨?_, hlevels ▸ rfl, hlevels ▸ rfl, hsame⟩
  rw [hlevels, Nat.zero_add]
  rfl

/-- It stands where it was when no-goods are added. -/
theorem withNoGoods (h : g.IsFixed number depth fixed before) {g' : Graph}
    {noGoods : NoGoods Fact} (hlen : noGoods.length = g.levels.length)
    (hlevels : g'.levels = withNoGoods g.levels noGoods) :
    g'.IsFixed number depth { fixed with noGoods := noGoods.getD depth [] }
      { before with noGoods := noGoods.getD (depth + 1) [] } :=
  ⟨by rw [hlevels, length_withNoGoods hlen, h.length_eq],
    by rw [hlevels, getElem?_withNoGoods hlen h.get_fixed],
    by rw [hlevels, getElem?_withNoGoods hlen h.get_before], h.same⟩

variable (hreg : ∀ s ∈ p.schemas, s.Regular) (hl : Ladder p g.strict g.levels)
  (h : g.IsFixed number depth fixed before)

include hreg hl h

/-- From the predecessor of the fixed point on, all layers are the same. -/
theorem below_before {i : Nat} {level : Level} (hi : g.levels[i]? = some level)
    (hle : i ≤ depth + 1) : level.facts.Below before.facts ∧ before.facts.Below level.facts := by
  refine ⟨?_, hl.below_of_le hle hi h.get_before⟩
  obtain ⟨k, hk⟩ := Nat.le.dest hle
  induction k generalizing i level with
  | zero =>
    obtain rfl : i = depth + 1 := hk
    obtain rfl := Option.some.inj (hi.symm.trans h.get_before)
    exact .refl _
  | succ k ih =>
    have hlt : i + 1 < g.levels.length := by
      have hlen := (List.getElem?_eq_some_iff.1 h.get_before).1
      omega
    have hnext := List.getElem?_eq_getElem hlt
    have hbefore := ih hnext (by omega) (by omega)
    have hfixed : fixed.facts.Below before.facts :=
      ((FactLayer.Sound.same_iff (hl.sound _ (List.mem_of_getElem? h.get_before))
        (hl.sound _ (List.mem_of_getElem? h.get_fixed))).1 h.same).2
    have hmono := (hl.follows hi hnext).mono (hl.follows h.get_fixed h.get_before) hreg hbefore
    exact hmono.trans hfixed

/-- From the fixed point on, the levels do not differ. -/
theorem agrees {i : Nat} {level : Level} (hi : g.levels[i]? = some level) (hle : i ≤ depth) :
    level.stage.Agrees fixed.stage := by
  have hlt : i + 1 < g.levels.length := by
    have hlen := (List.getElem?_eq_some_iff.1 h.get_before).1
    omega
  have hnext := List.getElem?_eq_getElem hlt
  obtain ⟨hb, hb'⟩ := h.below_before hreg hl hnext (Nat.succ_le_succ hle)
  exact (hl.follows hi hnext).agrees (hl.follows h.get_fixed h.get_before) hreg hb hb'

theorem agrees_of_mem {skipped count : Nat} (hle : skipped + count ≤ depth + 1)
    {stage : Stage Fact Step} (hs : stage ∈ ((stagesOf g.levels).drop skipped).take count) :
    stage.Agrees fixed.stage := by
  obtain ⟨i, hi⟩ := List.getElem?_of_mem hs
  rw [List.getElem?_take] at hi
  split at hi
  · rw [List.getElem?_drop, stagesOf, List.getElem?_map] at hi
    obtain ⟨level, hlevel, rfl⟩ := Option.map_eq_some_iff.1 hi
    exact h.agrees hreg hl hlevel (by omega)
  · cases hi

/-- A level that is derived from the newest one is the same. -/
theorem same_of_follows {newest level : Level} (hnewest : g.levels[0]? = some newest)
    (hfollows : level.Follows p.schemas g.strict newest) :
    newest.facts.same level.facts = true := by
  obtain ⟨hb, hb'⟩ := h.below_before hreg hl hnewest (Nat.zero_le _)
  obtain ⟨hc, -⟩ := h.below_before hreg hl h.get_fixed (Nat.le_succ depth)
  have hnext := hfollows.mono (hl.follows h.get_fixed h.get_before) hreg hb
  exact (FactLayer.Sound.same_iff (hl.sound newest (List.mem_of_getElem? hnewest)) hfollows.sound).2
    ⟨hfollows.below, (hnext.trans hc).trans hb'⟩

/-- The newest level has as many facts as the level of the fixed point. -/
theorem length_facts_eq {newest : Level} {rest : List Level} (hlevels : g.levels = newest :: rest) :
    newest.facts.facts.length = fixed.facts.facts.length := by
  have hnewest : g.levels[0]? = some newest := by rw [hlevels]; rfl
  obtain ⟨hb, hb'⟩ := h.below_before hreg hl hnewest (Nat.zero_le _)
  obtain ⟨hc, hc'⟩ := h.below_before hreg hl h.get_fixed (Nat.le_succ depth)
  have hsound := hl.sound newest (List.mem_of_getElem? hnewest)
  have hsound' := hl.sound fixed (List.mem_of_getElem? h.get_fixed)
  exact ((List.perm_ext_iff_of_nodup hsound.nodup hsound'.nodup).2
    fun f => ⟨fun hf => hc'.mem f (hb.mem f hf), fun hf => hb'.mem f (hc.mem f hf)⟩).length_eq

end IsFixed

/-! ### The invariant -/

/-- What is known of a graph on which the problem was loaded, whatever was expanded and searched
since then. -/
structure Consistent (g : Graph) (p : Problem) (goals : List Fact) : Prop where
  schemas_eq : g.schemas = p.schemas
  goals_eq : g.goalFacts? = some goals
  built : Built p g.strict g.levels
  regressive : Regressive Step.preconditions (stagesOf g.levels) g.noGoods
  fixed : ∀ number, g.fixedPoint = some number → ∃ depth fixed before,
    g.IsFixed number depth fixed before

theorem getD_noGoods {g : Graph} {i : Nat} {level : Level} (hi : g.levels[i]? = some level) :
    g.noGoods.getD i [] = level.noGoods := by
  rw [noGoods, List.getD_eq_getElem?_getD, List.getElem?_map, hi]
  rfl

theorem length_noGoods (g : Graph) : g.noGoods.length = (stagesOf g.levels).length := by
  rw [noGoods, stagesOf, List.length_map, List.length_map]

theorem length_of_learns {g : Graph} {noGoods : NoGoods Fact}
    (h : Learns Step.preconditions (stagesOf g.levels) g.noGoods noGoods) :
    noGoods.length = g.levels.length := by
  rw [h.length_eq, length_noGoods, List.length_map]

namespace Consistent

variable {g g' : Graph} {p : Problem} {goals : List Fact}

theorem ladder (h : g.Consistent p goals) : Ladder p g.strict g.levels := h.built.ladder

/-- A level is built over the one with the number before. -/
theorem derives (h : g.Consistent p goals) {number : Nat} {older newer : Level}
    (holder : g.level? number = some older) (hnewer : g.level? (number + 1) = some newer) :
    newer.Derives p.schemas g.strict older ∧ older.facts.Sound := by
  obtain ⟨-, hget⟩ := getElem?_of_level?_eq holder
  obtain ⟨hlt, hget'⟩ := getElem?_of_level?_eq hnewer
  have hdepth : g.levels.length - 1 - number = g.levels.length - 1 - (number + 1) + 1 := by omega
  exact ⟨h.built.derives hget' (hdepth ▸ hget), h.ladder.sound older (List.mem_of_getElem? hget)⟩

/-- The newest level, and what was derived from it. -/
theorem expand (h : g.Consistent p goals) {grew : Bool} (hexpand : g.expand = (.ok grew, g')) :
    g'.Consistent p goals ∧ ∃ newest rest level, g.levels = newest :: rest ∧
      level.Follows p.schemas g.strict newest ∧ level.noGoods = [] ∧
      g'.levels = level :: g.levels ∧ g'.strict = g.strict ∧
      g'.goalsReachable = level.facts.supports goals ∧
      g'.fixedPoint = g.fixedPoint.or
        (if newest.facts.same level.facts then some g.levels.length else none) ∧
      grew = (g'.goalsReachable || g'.fixedPoint.isNone) := by
  obtain ⟨newest, rest, level, hlevels, hnext, hstable, rfl, rfl⟩ := expand_eq_ok hexpand
  obtain ⟨hderives, hnone⟩ := Level.derives_of_nextLevel hnext
  rw [h.schemas_eq] at hderives
  have hsound := h.ladder.sound newest (hlevels ▸ List.mem_cons_self)
  have hreaches : g.reaches level.facts = level.facts.supports goals := by
    rw [reaches, h.goals_eq]
  refine ⟨⟨h.schemas_eq, h.goals_eq, ?_, ?_, fun number hnumber => ?_⟩,
    newest, rest, level, hlevels, hderives.follows hsound, hnone, rfl, rfl, hreaches, rfl, rfl⟩
  · change Built p g.strict (level :: g.levels)
    rw [hlevels]
    exact .step hderives (hlevels ▸ h.built)
  · change Regressive Step.preconditions (stagesOf (level :: g.levels)) (level.noGoods :: g.noGoods)
    have hr := h.regressive
    rw [hnone, hlevels] at *
    exact ⟨fun facts hfacts => absurd hfacts List.not_mem_nil, hr⟩
  · change g.fixedPoint.or _ = some number at hnumber
    rcases Option.or_eq_some_iff.1 hnumber with hn | ⟨hn, hsame⟩
    · obtain ⟨depth, fixed, before, hfixed⟩ := h.fixed number hn
      exact ⟨depth + 1, fixed, before, hfixed.cons rfl⟩
    · split at hsame
      · rename_i hsame'
        obtain rfl := Option.some.inj hsame
        refine ⟨0, level, newest, ?_⟩
        rw [hlevels]
        exact .of_same rfl hsame'
      · cases hsame

/-- **An expansion that fails changes nothing, and it fails only at a fact that no step can keep.**
What is derived from the fixed point is the fixed point. -/
theorem expand_eq_error (hreg : ∀ s ∈ p.schemas, s.Regular) (h : g.Consistent p goals)
    {e : GraphError} (hexpand : g.expand = (.error e, g')) :
    g' = g ∧ ∃ newest rest, g.levels = newest :: rest ∧ ∃ f ∈ newest.facts.facts, ∃ cause,
      Step.keep f = .error cause ∧ e = .layer (.schema cause) := by
  obtain ⟨newest, rest, hlevels, hfailed⟩ := Graph.expand_eq_error hexpand h.ladder.ne_nil
  rcases hfailed with ⟨cause, hnext, rfl, rfl⟩ | ⟨number, level, hnumber, hnext, hstable⟩
  · obtain ⟨f, hf, cause, hkeep, rfl⟩ :=
      Level.exists_of_nextLevel_eq_error (h.schemas_eq.symm ▸ hreg) hnext
    exact ⟨rfl, newest, rest, hlevels, f, hf, cause, hkeep, rfl⟩
  · obtain ⟨depth, fixed, before, hfixed⟩ := h.fixed number hnumber
    have hnewest : g.levels[0]? = some newest := by rw [hlevels]; rfl
    have hderives := (Level.derives_of_nextLevel hnext).1
    rw [h.schemas_eq] at hderives
    rw [hfixed.same_of_follows hreg h.ladder hnewest
      (hderives.follows (h.ladder.sound newest (List.mem_of_getElem? hnewest)))] at hstable
    cases hstable

/-- What a search answers, and what it does to the graph. -/
theorem extract (h : g.Consistent p goals) (hreach : g.goalsReachable = true)
    {answer : Option (List Step)} (hextract : g.extract = (.ok answer, g')) :
    answer = (search Step.preconditions (stagesOf g.levels) goals g.noGoods).1 ∧
      g' = { g with
        attempts := g.attempts + 1
        levels := withNoGoods g.levels
          (search Step.preconditions (stagesOf g.levels) goals g.noGoods).2 } := by
  rw [extract_eq h.ladder.ne_nil hreach h.goals_eq] at hextract
  obtain ⟨hanswer, hgraph⟩ := Prod.mk.inj hextract
  exact ⟨(Except.ok.inj hanswer).symm, hgraph.symm⟩

/-- Every search that is started comes to an answer. -/
theorem exists_extract (h : g.Consistent p goals) :
    ∃ answer g', g.extract = (.ok answer, g') := by
  cases hreach : g.goalsReachable with
  | true => exact ⟨_, _, extract_eq h.ladder.ne_nil hreach h.goals_eq⟩
  | false =>
    refine ⟨none, g, ?_⟩
    rw [Graph.extract, if_neg (by simpa using h.ladder.ne_nil), if_pos (by simp [hreach])]

theorem search_learns (h : g.Consistent p goals) :
    Learns Step.preconditions (stagesOf g.levels) g.noGoods
        (search Step.preconditions (stagesOf g.levels) goals g.noGoods).2 ∧
      ((search Step.preconditions (stagesOf g.levels) goals g.noGoods).1 = none →
        Blocked (stagesOf g.levels)
          (search Step.preconditions (stagesOf g.levels) goals g.noGoods).2 goals) :=
  Strips.search_learns (fun hst => (Step.mem_preconditions_of_beq hst).1) h.ladder.lawful
    g.length_noGoods

theorem keeps_of_extract (h : g.Consistent p goals) (hreach : g.goalsReachable = true)
    {answer : Option (List Step)} (hextract : g.extract = (.ok answer, g')) :
    g'.fixedPoint = g.fixedPoint ∧ g'.levels.length = g.levels.length := by
  obtain ⟨-, rfl⟩ := h.extract hreach hextract
  exact ⟨rfl, length_withNoGoods (length_of_learns h.search_learns.1)⟩

/-- A search adds no-goods to a level and leaves it as it is otherwise. -/
theorem level?_of_extract (h : g.Consistent p goals) (hreach : g.goalsReachable = true)
    {answer : Option (List Step)} (hextract : g.extract = (.ok answer, g')) {number : Nat}
    {level : Level} (hlevel : g.level? number = some level) :
    ∃ new, g'.level? number = some { level with noGoods := level.noGoods ++ new } := by
  obtain ⟨-, rfl⟩ := h.extract hreach hextract
  have hlearns := h.search_learns.1
  have hlen := length_of_learns hlearns
  obtain ⟨-, hget⟩ := getElem?_of_level?_eq hlevel
  obtain ⟨new, heq, -⟩ := hlearns.level (g.levels.length - 1 - number)
  rw [getD_noGoods hget] at heq
  exact ⟨new, heq ▸ level?_withNoGoods hlen rfl hlevel⟩

/-- A search keeps what is known, whether or not it finds a plan. -/
theorem of_extract (h : g.Consistent p goals) (hreach : g.goalsReachable = true)
    {answer : Option (List Step)} (hextract : g.extract = (.ok answer, g')) :
    g'.Consistent p goals := by
  obtain ⟨-, rfl⟩ := h.extract hreach hextract
  have hlearns := h.search_learns.1
  generalize (search Step.preconditions (stagesOf g.levels) goals g.noGoods).2 = noGoods at *
  have hlen := length_of_learns hlearns
  refine ⟨h.schemas_eq, h.goals_eq, h.built.withNoGoods hlen, ?_, fun number hn => ?_⟩
  · change Regressive _ (stagesOf (withNoGoods g.levels noGoods))
      ((withNoGoods g.levels noGoods).map Level.noGoods)
    rw [stagesOf_withNoGoods hlen, noGoods_withNoGoods hlen]
    exact hlearns.regressive h.regressive
  · obtain ⟨depth, fixed, before, hfixed⟩ := h.fixed number hn
    exact ⟨depth, _, _, hfixed.withNoGoods hlen rfl⟩

end Consistent

/-! ### Calls -/

/-- What can be asked of a graph on which a problem was loaded. -/
inductive Call where
  | expand
  | extract
  deriving DecidableEq, Repr

/-- The graph after a call. -/
def call (g : Graph) : Call → Graph
  | .expand => g.expand.2
  | .extract => g.extract.2

/-- The graph after a number of calls, one after the other. -/
def calls (g : Graph) (cs : List Call) : Graph := cs.foldl call g

namespace Consistent

variable {g : Graph} {p : Problem} {goals : List Fact}

/-- One call keeps what is known. -/
theorem call (hreg : ∀ s ∈ p.schemas, s.Regular) (h : g.Consistent p goals) (c : Call) :
    (g.call c).Consistent p goals := by
  cases c with
  | expand =>
    change g.expand.2.Consistent p goals
    rcases hexpand : g.expand with ⟨e | grew, g'⟩
    · obtain ⟨rfl, -⟩ := h.expand_eq_error hreg hexpand
      exact h
    · exact (h.expand hexpand).1
  | extract =>
    change g.extract.2.Consistent p goals
    cases hreach : g.goalsReachable with
    | false =>
      rw [Graph.extract, if_neg (by simpa using h.ladder.ne_nil), if_pos (by simp [hreach])]
      exact h
    | true =>
      obtain ⟨answer, g', hextract⟩ := h.exists_extract
      rw [hextract]
      exact h.of_extract hreach hextract

/-- **Whatever is called, what is known is kept.** -/
theorem calls (hreg : ∀ s ∈ p.schemas, s.Regular) (h : g.Consistent p goals) (cs : List Call) :
    (g.calls cs).Consistent p goals := by
  induction cs generalizing g with
  | nil => exact h
  | cons c cs ih => exact ih (h.call hreg c)

end Consistent

end Graph

/-- **What is known when a problem was loaded.** -/
theorem Problem.consistent_of_graph {p : Problem} (hreg : ∀ s ∈ p.schemas, s.Regular)
    {strict : Bool} {budget : Int} {g : Graph} (h : p.graph strict budget = .ok g) :
    g.Consistent p (eachOnce p.goals) := by
  rw [graph_eq hreg] at h
  split at h
  · cases h
  · obtain rfl := Except.ok.inj h
    exact ⟨rfl, factsOf?_literals _, .start rfl rfl, rfl, fun _ hn => by cases hn⟩

theorem eq_ok_of_toOption_eq_some {ε α : Type} {e : Except ε α} {a : α}
    (h : e.toOption = some a) : e = .ok a := by
  cases e with
  | error => cases h
  | ok => exact congrArg Except.ok (Option.some.inj h)

/-- The graph of the problem of a text after a number of calls, if the text says a problem. -/
def Problem.graphAfter? (text : String) (strict : Bool) (calls : List Graph.Call) : Option Graph :=
  match parse text with
  | .error _ => none
  | .ok p =>
    match p.graph strict 0 with
    | .error _ => none
    | .ok g => some (g.calls calls)

theorem Problem.exists_of_graphAfter?_eq_some {text : String} {strict : Bool}
    {calls : List Graph.Call} {g' : Graph} (h : graphAfter? text strict calls = some g') :
    ∃ p g, parse text = .ok p ∧ p.graph strict 0 = .ok g ∧ g.calls calls = g' := by
  rw [graphAfter?] at h
  split at h
  · cases h
  · rename_i p hp
    split at h
    · cases h
    · rename_i g hg
      exact ⟨p, g, hp, hg, Option.some.inj h⟩

end Strips
