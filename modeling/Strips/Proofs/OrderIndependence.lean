import Strips.Proofs.FixedPoint
import Strips.Proofs.PlainSearch
import Strips.Proofs.Termination

/-!
# The order of a problem does not matter

Schemas, initial facts and goals of a problem come in some order, and with another order the search
visits covers in another order, records other no-goods and may find another plan. But the levels
have the same facts and steps with the same exclusions, since what they hold does not depend on any
order. So the same descents lead through them, and by the end of each search that failed the same
sets are blocked. Whether a search finds a plan, and whether it has recorded a no-good at the level
of the fixed point, can be told from descents and blocked sets, so both attempts go on or end alike.

## Main definitions

* `Problem.Reordered` – the same problem in another order.
* `Level.Alike` – levels with the same facts and steps, and the same exclusions.
* `Graph.Blocks` – what is blocked so many levels below the newest one.
* `Graph.Alike`, `Graph.Mirrors` – graphs with such levels, and with the same blocked sets.
* `PlanResult.SameOutcome` – outcomes that differ in the plan and the number of no-goods at most.

## Main results

* `Ladder.alike` – the levels of a problem do not depend on its order.
* `Graph.Mirrors.expand`, `Graph.Mirrors.extract` – one operation.
* `Graph.Mirrors.again`, `Graph.Mirrors.done` – one round.
* `Graph.same_outcome_of_reordered` – the whole attempt.
-/

namespace Strips

open Relation

/-- The same schemas, initial facts and goals, each of them in another order. -/
structure Problem.Reordered (p p' : Problem) : Prop where
  schemas : p.schemas.Perm p'.schemas
  initial : p.initial.Perm p'.initial
  goals : p.goals.Perm p'.goals

theorem Problem.Reordered.regular {p p' : Problem} (hpp : p.Reordered p')
    (hreg : ∀ s ∈ p.schemas, s.Regular) : ∀ s ∈ p'.schemas, s.Regular :=
  fun s hs => hreg s (hpp.schemas.mem_iff.2 hs)

/-! ### Levels -/

/-- Action layers with the same steps, of which the same exclude each other. -/
structure ActionLayer.Alike (actions actions' : ActionLayer) : Prop where
  contains : ∀ s, actions.steps.contains s = actions'.steps.contains s
  isMutex : ∀ s t, actions.isMutex s t = actions'.isMutex s t

/-- Levels with the same facts and steps, of which the same exclude each other. -/
structure Level.Alike (level other : Level) : Prop where
  mem_facts : ∀ f, f ∈ level.facts.facts ↔ f ∈ other.facts.facts
  isMutex_facts : ∀ f g, level.facts.isMutex f g = other.facts.isMutex f g
  actions : Option.Rel ActionLayer.Alike level.actions other.actions

namespace Level

variable {level other : Level}

theorem Alike.below (h : level.Alike other) :
    level.facts.Below other.facts ∧ other.facts.Below level.facts :=
  ⟨⟨fun f => (h.mem_facts f).1, fun f _ g _ => by rw [h.isMutex_facts]; exact id⟩,
    ⟨fun f => (h.mem_facts f).2, fun f _ g _ => by rw [h.isMutex_facts]; exact id⟩⟩

theorem SameAs.alike (h : level.SameAs other) : level.Alike other := by
  obtain ⟨actions, actions', hactions, hactions', hcontains, hmutex⟩ := h.actions
  refine ⟨h.mem_facts, h.isMutex_facts, ?_⟩
  rw [hactions, hactions']
  exact .some ⟨hcontains, hmutex⟩

/-- Levels that are alike support the same sets. -/
theorem Alike.supports_eq (h : level.Alike other) (hl : level.facts.Sound) (ho : other.facts.Sound)
    {facts facts' : List Fact} (hfacts : ∀ f, f ∈ facts ↔ f ∈ facts') :
    level.facts.supports facts = other.facts.supports facts' := by
  rw [Bool.eq_iff_iff, hl.supports_iff, ho.supports_iff]
  simp only [hfacts, h.mem_facts, h.isMutex_facts]

/-- Whether a level is the same as the one before can be told from levels that are alike. -/
theorem Alike.same_eq {next next' : Level} (h : level.Alike other) (hnext : next.Alike next')
    (hs : level.facts.Sound) (hs' : next.facts.Sound) (ho : other.facts.Sound)
    (ho' : next'.facts.Sound) :
    level.facts.same next.facts = other.facts.same next'.facts := by
  obtain ⟨hb, hb'⟩ := h.below
  obtain ⟨hc, hc'⟩ := hnext.below
  rw [Bool.eq_iff_iff, hs.same_iff hs', ho.same_iff ho']
  exact ⟨fun hsame => ⟨(hb'.trans hsame.1).trans hc, (hc'.trans hsame.2).trans hb⟩,
    fun hsame => ⟨(hb.trans hsame.1).trans hc', (hc.trans hsame.2).trans hb'⟩⟩

end Level

/-- What a level is does not depend on the order of the schemas. -/
theorem Level.Follows.of_mem {schemas schemas' : List Schema} (hs : ∀ s, s ∈ schemas ↔ s ∈ schemas')
    {strict : Bool} {newer older : Level} (h : newer.Follows schemas' strict older) :
    newer.Follows schemas strict older := by
  obtain ⟨actions, hactions, hover, hafter⟩ := h
  refine ⟨actions, hactions, ⟨hover.keeps, fun s hmem => hover.instances s ((hs s).1 hmem),
    fun t ht => (hover.origin t ht).imp_right ?_, hover.isMutex_iff⟩, hafter⟩
  rintro ⟨s, hmem, hinst⟩
  exact ⟨s, (hs s).2 hmem, hinst⟩

/-- Nor does what a ladder is depend on the order of a problem. -/
theorem Ladder.of_reordered {p p' : Problem} (hpp : p.Reordered p') {strict : Bool}
    {levels : List Level} (h : Ladder p' strict levels) : Ladder p strict levels := by
  induction h with
  | start hsound hmem hfree hactions =>
    exact .start hsound (fun f => (hmem f).trans hpp.initial.mem_iff.symm) hfree hactions
  | step hfollows _ ih => exact .step (hfollows.of_mem fun _ => hpp.schemas.mem_iff) ih

/-- **The levels of a problem are determined by their number**, up to order, and so is what the
search sees of those that others lead to. -/
theorem Ladder.alike {p : Problem} (hreg : ∀ s ∈ p.schemas, s.Regular) {strict : Bool}
    {levels levels' : List Level} (h : Ladder p strict levels) (h' : Ladder p strict levels')
    (hlen : levels.length = levels'.length) : List.Forall₂ Level.Alike levels levels' ∧
      List.Forall₂ Stage.Agrees ((stagesOf levels).take (levels.length - 1))
        ((stagesOf levels').take (levels.length - 1)) := by
  induction h generalizing levels' with
  | start _ hmem hfree hactions =>
    cases h' with
    | start _ hmem' hfree' hactions' =>
      refine ⟨.cons ⟨fun f => (hmem f).trans (hmem' f).symm, fun f g => ?_, ?_⟩ .nil, .nil⟩
      · rw [hfree, hfree']
      · rw [hactions, hactions']
        exact .none
    | step => cases hlen
  | step hfollows _ ih =>
    cases h' with
    | start => cases hlen
    | step hfollows' hrest' =>
      obtain ⟨halike, hagrees⟩ := ih hrest' (Nat.succ.inj hlen)
      cases halike with
      | cons hold hrest =>
        obtain ⟨hb, hb'⟩ := hold.below
        exact ⟨.cons (hfollows.sameAs hfollows' hreg hb hb').alike (.cons hold hrest),
          .cons (hfollows.agrees hfollows' hreg hb hb') hagrees⟩

/-! ### One graph -/

namespace Graph

/-- A set of facts is blocked at the level that is so many levels below the newest one. -/
def Blocks (g : Graph) (depth : Nat) (facts : List Fact) : Prop :=
  Blocked ((stagesOf g.levels).drop depth) (g.noGoods.drop depth) facts

variable {g g' : Graph} {p : Problem} {goals : List Fact}

/-- At a newest level without no-goods the sets are blocked that it does not support. -/
theorem blocks_zero_iff {level : Level} {rest : List Level} (hlevels : g.levels = level :: rest)
    (hnone : level.noGoods = []) {facts : List Fact} :
    g.Blocks 0 facts ↔ level.facts.supports facts = false := by
  rw [Blocks, noGoods, hlevels, List.drop_zero, List.drop_zero, List.map_cons, hnone]
  exact or_iff_left Bool.false_ne_true

/-- A new level leaves what is blocked below it as it is. -/
theorem blocks_succ_iff {level : Level} (hlevels : g'.levels = level :: g.levels) {depth : Nat}
    {facts : List Fact} : g'.Blocks (depth + 1) facts ↔ g.Blocks depth facts := by
  rw [Blocks, noGoods, hlevels]
  rfl

/-- An expansion leaves the limit and the number of searches as they are. -/
theorem settings_of_expand {grew : Bool} (hexpand : g.expand = (.ok grew, g')) :
    g'.budget = g.budget ∧ g'.attempts = g.attempts := by
  obtain ⟨_, _, _, -, -, -, rfl, -⟩ := expand_eq_ok hexpand
  exact ⟨rfl, rfl⟩

namespace Consistent

/-- What is blocked after a search can be told from what the search returns. -/
theorem blocks_of_extract_iff (hg : g.Consistent p goals) (hreach : g.goalsReachable = true)
    {answer : Option (List Step)} (hextract : g.extract = (.ok answer, g')) {depth : Nat}
    {facts : List Fact} : g'.Blocks depth facts ↔ Blocked ((stagesOf g.levels).drop depth)
      ((search Step.preconditions (stagesOf g.levels) goals g.noGoods).2.drop depth) facts := by
  have hlen := length_of_learns hg.search_learns.1
  have hlevels := congrArg levels (hg.extract hreach hextract).2
  have hnoGoods : g'.noGoods = _ := (congrArg (List.map Level.noGoods) hlevels).trans
    (noGoods_withNoGoods hlen)
  rw [Blocks, hnoGoods, hlevels, stagesOf_withNoGoods hlen]

/-- **What a search that fails has blocked** at a level. -/
theorem blocks_of_extract_none_iff (hg : g.Consistent p goals) (hreach : g.goalsReachable = true)
    (hextract : g.extract = (.ok none, g')) {depth : Nat} (hdepth : depth < g.levels.length)
    {facts : List Fact} : g'.Blocks depth facts ↔ g.Blocks depth facts ∨
      Descends Step.preconditions depth (stagesOf g.levels) goals facts := by
  rw [hg.blocks_of_extract_iff hreach hextract]
  exact blocked_drop_search_iff (fun hst => (Step.mem_preconditions_of_beq hst).1)
    hg.ladder.lawful g.length_noGoods hg.regressive (hg.extract hreach hextract).1.symm
    (by rwa [List.length_map])

/-- **A search finds a plan exactly if a descent leads to initial facts.** -/
theorem isSome_of_extract_iff (hg : g.Consistent p goals) (hreach : g.goalsReachable = true)
    {answer : Option (List Step)} (hextract : g.extract = (.ok answer, g')) {first : Level}
    (hfirst : g.levels[g.levels.length - 1]? = some first) :
    answer.isSome = true ↔ ∃ facts, first.facts.supports facts = true ∧
      Descends Step.preconditions (g.levels.length - 1) (stagesOf g.levels) goals facts := by
  have hlast : (stagesOf g.levels).getLast? = some first.stage := by
    rw [List.getLast?_eq_getElem?, List.length_map]
    exact getElem?_stagesOf hfirst
  rw [(hg.extract hreach hextract).1, hg.plainSearch_eq, isSome_plainSearch_iff
    (fun hst => (Step.mem_preconditions_of_beq hst).1) hg.ladder.lawful, List.length_map, hlast]
  constructor
  · rintro ⟨last, facts, hlast, hsupports, hd⟩
    obtain rfl := Option.some.inj hlast
    exact ⟨facts, hsupports, hd⟩
  · rintro ⟨facts, hsupports, hd⟩
    exact ⟨_, facts, rfl, hsupports, hd⟩

/-- **A no-good is recorded at the level of the fixed point exactly if more is blocked there.** -/
theorem fixedPointNoGoods_ne_iff (hg : g.Consistent p goals) (hreach : g.goalsReachable = true)
    {answer : Option (List Step)} (hextract : g.extract = (.ok answer, g')) {number depth : Nat}
    {fixed before : Level} (hn : g.fixedPoint = some number)
    (hfixed : g.IsFixed number depth fixed before) :
    g'.fixedPointNoGoods ≠ g.fixedPointNoGoods ↔ ∃ facts,
      g'.Blocks depth facts ∧ ¬ g.Blocks depth facts := by
  have hlearns := hg.search_learns.1
  have hlen := length_of_learns hlearns
  have hlt := (List.getElem?_eq_some_iff.1 hfixed.get_fixed).1
  have hn' : g'.fixedPoint = some number := (hg.keeps_of_extract hreach hextract).1.trans hn
  have hfixed' := hfixed.withNoGoods hlen (congrArg levels (hg.extract hreach hextract).2)
  rw [fixedPointNoGoods_eq hn' hfixed'.level?_eq, fixedPointNoGoods_eq hn hfixed.level?_eq,
    ← getD_noGoods hfixed.get_fixed]
  simp only [hg.blocks_of_extract_iff hreach hextract]
  exact hlearns.length_ne_iff (by rwa [List.length_map])

end Consistent

end Graph

/-! ### Two graphs -/

/-- Outcomes that differ in the plan and the number of no-goods at most. -/
structure PlanResult.SameOutcome (r r' : PlanResult) : Prop where
  status : r'.status = r.status
  layersBuilt : r'.layersBuilt = r.layersBuilt
  fixedPoint : r'.fixedPoint = r.fixedPoint
  attempts : r'.attempts = r.attempts

namespace Graph

/-- Graphs of a problem in two orders, with as many levels, that do not differ in what they know of
the goals and of the fixed point. -/
structure Alike (g h : Graph) (p p' : Problem) : Prop where
  left : g.Consistent p (Problem.eachOnce p.goals)
  right : h.Consistent p' (Problem.eachOnce p'.goals)
  strict : h.strict = g.strict
  budget : h.budget = g.budget
  length : h.levels.length = g.levels.length
  fixedPoint : h.fixedPoint = g.fixedPoint
  goalsReachable : h.goalsReachable = g.goalsReachable
  attempts : h.attempts = g.attempts

/-- Such graphs in which the same sets are blocked at every level. -/
structure Mirrors (g h : Graph) (p p' : Problem) : Prop extends g.Alike h p p' where
  blocks_iff : ∀ depth < g.levels.length, ∀ facts, g.Blocks depth facts ↔ h.Blocks depth facts

variable {g g' h : Graph} {p p' : Problem}

namespace Alike

theorem layersBuilt (ha : g.Alike h p p') : h.layersBuilt = g.layersBuilt :=
  congrArg (· - 1) ha.length

theorem sameOutcome (ha : g.Alike h p p') (status : PlanStatus) (plan plan' : Option (List Step)) :
    (g.result status plan).SameOutcome (h.result status plan') :=
  ⟨rfl, ha.layersBuilt, ha.fixedPoint, ha.attempts⟩

variable (hreg : ∀ s ∈ p.schemas, s.Regular) (hpp : p.Reordered p') (ha : g.Alike h p p')

include hreg hpp ha

theorem levels : List.Forall₂ Level.Alike g.levels h.levels ∧
    List.Forall₂ Stage.Agrees ((stagesOf g.levels).take (g.levels.length - 1))
      ((stagesOf h.levels).take (g.levels.length - 1)) :=
  ha.left.ladder.alike hreg (ha.strict ▸ ha.right.ladder.of_reordered hpp) ha.length.symm

omit hreg ha in
theorem mem_goals {f : Fact} : f ∈ Problem.eachOnce p.goals ↔ f ∈ Problem.eachOnce p'.goals := by
  rw [Problem.mem_eachOnce, Problem.mem_eachOnce, hpp.goals.mem_iff]

/-- The same descents lead from the goals through the levels of both graphs. -/
theorem descends_iff {depth : Nat} (hdepth : depth < g.levels.length) {facts : List Fact} :
    Descends Step.preconditions depth (stagesOf g.levels) (Problem.eachOnce p.goals) facts ↔
      Descends Step.preconditions depth (stagesOf h.levels) (Problem.eachOnce p'.goals) facts := by
  have hagrees := List.forall₂_take depth (ha.levels hreg hpp).2
  rw [List.take_take, List.take_take, Nat.min_eq_left (Nat.le_sub_one_of_lt hdepth)] at hagrees
  have hagrees' := (hagrees.imp fun _ _ => Stage.Agrees.symm).flip
  constructor
  · intro hd
    exact (hd.congr hagrees).mono ha.right.ladder.lawful (fun f => (mem_goals hpp).2) fun _ => id
  · intro hd
    exact (hd.congr hagrees').mono ha.left.ladder.lawful (fun f => (mem_goals hpp).1) fun _ => id

/-- Each level of the one graph has its like in the other, which supports the same sets. -/
theorem exists_level {i : Nat} {level : Level} (hi : g.levels[i]? = some level) :
    ∃ level', h.levels[i]? = some level' ∧ level.Alike level' ∧
      ∀ {facts facts' : List Fact}, (∀ f, f ∈ facts ↔ f ∈ facts') →
        level.facts.supports facts = level'.facts.supports facts' := by
  obtain ⟨hlt, rfl⟩ := List.getElem?_eq_some_iff.1 hi
  have halike := (List.forall₂_iff_get.1 (ha.levels hreg hpp).1).2 i hlt (ha.length.symm ▸ hlt)
  have hsound := ha.left.ladder.sound _ (List.getElem_mem hlt)
  have hsound' := ha.right.ladder.sound _ (List.getElem_mem (ha.length.symm ▸ hlt))
  exact ⟨_, List.getElem?_eq_getElem (ha.length.symm ▸ hlt), halike,
    fun hfacts => halike.supports_eq hsound hsound' hfacts⟩

/-- At the newest levels the same sets are blocked as long as nothing is recorded there. -/
theorem blocks_iff_of_noGoods_eq_nil {level level' : Level} {rest rest' : List Level}
    (hlevels : g.levels = level :: rest) (hlevels' : h.levels = level' :: rest')
    (hnone : level.noGoods = []) (hnone' : level'.noGoods = []) {facts : List Fact} :
    g.Blocks 0 facts ↔ h.Blocks 0 facts := by
  have hlevel : g.levels[0]? = some level := by rw [hlevels]; rfl
  obtain ⟨next, hnext, -, hsupports⟩ := ha.exists_level hreg hpp hlevel
  rw [hlevels'] at hnext
  obtain rfl := Option.some.inj hnext
  rw [blocks_zero_iff hlevels hnone, blocks_zero_iff hlevels' hnone', hsupports fun _ => .rfl]

end Alike

/-- The limit is reached in both graphs or in none. -/
theorem Alike.limit_iff (ha : g.Alike h p p') :
    (h.budget ≠ 0 ∧ h.budget ≤ h.layersBuilt) ↔ (g.budget ≠ 0 ∧ g.budget ≤ g.layersBuilt) := by
  rw [ha.budget, ha.layersBuilt]

/-- What is searched is searched alike, as far as the levels go. -/
theorem Alike.extract (ha : g.Alike h p p') (hreach : g.goalsReachable = true)
    {answer : Option (List Step)} (hextract : g.extract = (.ok answer, g')) :
    ∃ answer' h', h.extract = (.ok answer', h') ∧ g'.Alike h' p p' := by
  have hreach' : h.goalsReachable = true := ha.goalsReachable.trans hreach
  obtain ⟨answer', h', hextract'⟩ := ha.right.exists_extract
  refine ⟨answer', h', hextract', ?_⟩
  have hleft := ha.left.of_extract hreach hextract
  have hright := ha.right.of_extract hreach' hextract'
  have hlen := (ha.left.keeps_of_extract hreach hextract).2
  have hlen' := (ha.right.keeps_of_extract hreach' hextract').2
  obtain ⟨-, rfl⟩ := ha.left.extract hreach hextract
  obtain ⟨-, rfl⟩ := ha.right.extract hreach' hextract'
  exact ⟨hleft, hright, ha.strict, ha.budget, hlen'.trans (ha.length.trans hlen.symm),
    ha.fixedPoint, ha.goalsReachable, congrArg (· + 1) ha.attempts⟩

/-- **Either both or none of two searches have recorded a no-good** at the level of the fixed
point. -/
theorem Mirrors.fixedPointNoGoods_eq_iff (hm : g.Mirrors h p p') (hreach : g.goalsReachable = true)
    {h' : Graph} {answer answer' : Option (List Step)} (hextract : g.extract = (.ok answer, g'))
    (hextract' : h.extract = (.ok answer', h')) (hm' : g'.Mirrors h' p p') :
    h'.fixedPointNoGoods = h.fixedPointNoGoods ↔ g'.fixedPointNoGoods = g.fixedPointNoGoods := by
  have hreach' : h.goalsReachable = true := hm.goalsReachable.trans hreach
  obtain ⟨hfixedPoint, hlen⟩ := hm.left.keeps_of_extract hreach hextract
  cases hn : g.fixedPoint with
  | none =>
    simp [fixedPointNoGoods, hm'.fixedPoint, hm.fixedPoint, hfixedPoint, hn]
  | some number =>
    have hn' : h.fixedPoint = some number := hm.fixedPoint.trans hn
    obtain ⟨depth, fixed, before, hfixed⟩ := hm.left.fixed number hn
    obtain ⟨depth', fixed', before', hfixed'⟩ := hm.right.fixed number hn'
    obtain rfl : depth' = depth := by
      have hlength := hfixed'.length_eq
      rw [hm.length, ← hfixed.length_eq] at hlength
      omega
    have hlt := (List.getElem?_eq_some_iff.1 hfixed.get_fixed).1
    refine not_iff_not.1 ?_
    rw [← ne_eq, ← ne_eq, hm.left.fixedPointNoGoods_ne_iff hreach hextract hn hfixed,
      hm.right.fixedPointNoGoods_ne_iff hreach' hextract' hn' hfixed']
    refine exists_congr fun facts => ?_
    rw [hm.blocks_iff depth' hlt, hm'.blocks_iff depth' (hlen.symm ▸ hlt)]

section Operations

variable (hreg : ∀ s ∈ p.schemas, s.Regular) (hpp : p.Reordered p')

include hreg hpp

/-! ### Expanding -/

/-- Both graphs can be expanded if one can: a fact that could not be kept would be a fact of the
other one, where it is kept. -/
theorem Alike.exists_expand (ha : g.Alike h p p') {grew : Bool}
    (hexpand : g.expand = (.ok grew, g')) : ∃ grew' h', h.expand = (.ok grew', h') := by
  have hreg' := hpp.regular hreg
  rcases hexpand' : h.expand with ⟨e | grew', h'⟩
  · obtain ⟨-, newest, rest, level, hlevels, ⟨actions, -, hover, -⟩, -⟩ := ha.left.expand hexpand
    have hnewest : g.levels[0]? = some newest := by rw [hlevels]; rfl
    obtain ⟨newest', hnewest', halike, -⟩ := ha.exists_level hreg hpp hnewest
    obtain ⟨-, top, below, hcons, f, hf, cause, hkeep, -⟩ := ha.right.expand_eq_error hreg' hexpand'
    rw [hcons] at hnewest'
    obtain rfl := Option.some.inj hnewest'
    obtain ⟨k, -, hk⟩ := hover.keeps f ((halike.mem_facts f).2 hf)
    cases hkeep.symm.trans hk
  · exact ⟨grew', h', rfl⟩

/-- What is expanded is expanded alike: the new levels are derived from levels that are alike. -/
theorem Alike.expand (ha : g.Alike h p p') {grew grew' : Bool} {h' : Graph}
    (hexpand : g.expand = (.ok grew, g')) (hexpand' : h.expand = (.ok grew', h')) :
    grew' = grew ∧ g'.Alike h' p p' := by
  obtain ⟨hleft, newest, rest, level, hlevels, hfollows, -, hlevels', hstrict, hreach, hfixed,
    hgrew⟩ := ha.left.expand hexpand
  obtain ⟨hright, top, below, next, hcons, hfollows', -, hcons', hstrict', hreach', hfixed',
    hgrew'⟩ := ha.right.expand hexpand'
  have hnewest : g.levels[0]? = some newest := by rw [hlevels]; rfl
  obtain ⟨newest', hnewest', halike, -⟩ := ha.exists_level hreg hpp hnewest
  rw [hcons] at hnewest'
  obtain rfl := Option.some.inj hnewest'
  have hnext : level.Alike next := by
    rw [ha.strict] at hfollows'
    exact (hfollows.sameAs (hfollows'.of_mem fun _ => hpp.schemas.mem_iff) hreg
      halike.below.1 halike.below.2).alike
  have hfixedPoint : h'.fixedPoint = g'.fixedPoint := by
    have hsound := ha.left.ladder.sound newest (hlevels ▸ List.mem_cons_self)
    have hsound' := ha.right.ladder.sound top (hcons ▸ List.mem_cons_self)
    rw [hfixed, hfixed', ha.fixedPoint, ha.length,
      halike.same_eq hnext hsound hfollows.sound hsound' hfollows'.sound]
  have hreachable : h'.goalsReachable = g'.goalsReachable := by
    rw [hreach, hreach']
    exact (hnext.supports_eq hfollows.sound hfollows'.sound fun f => mem_goals hpp).symm
  obtain ⟨hbudget, hattempts⟩ := settings_of_expand hexpand
  obtain ⟨hbudget', hattempts'⟩ := settings_of_expand hexpand'
  refine ⟨by rw [hgrew, hgrew', hfixedPoint, hreachable], hleft, hright, ?_, ?_, ?_, hfixedPoint,
    hreachable, ?_⟩
  · rw [hstrict, hstrict', ha.strict]
  · rw [hbudget, hbudget', ha.budget]
  · rw [hlevels', hcons', List.length_cons, List.length_cons, ha.length]
  · rw [hattempts, hattempts', ha.attempts]

/-- **An expansion keeps the blocked sets the same**: at the new levels only the sets are blocked
that these do not support. -/
theorem Mirrors.expand (hm : g.Mirrors h p p') {grew : Bool} (hexpand : g.expand = (.ok grew, g')) :
    ∃ h', h.expand = (.ok grew, h') ∧ g'.Mirrors h' p p' := by
  obtain ⟨grew', h', hexpand'⟩ := hm.exists_expand hreg hpp hexpand
  obtain ⟨rfl, ha⟩ := hm.toAlike.expand hreg hpp hexpand hexpand'
  obtain ⟨-, -, -, level, -, -, hnone, hlevels, -⟩ := hm.left.expand hexpand
  obtain ⟨-, -, -, level', -, -, hnone', hlevels', -⟩ := hm.right.expand hexpand'
  refine ⟨h', hexpand', ha, fun depth hdepth facts => ?_⟩
  cases depth with
  | zero => exact ha.blocks_iff_of_noGoods_eq_nil hreg hpp hlevels hlevels' hnone hnone'
  | succ depth =>
    rw [hlevels] at hdepth
    rw [blocks_succ_iff hlevels, blocks_succ_iff hlevels']
    exact hm.blocks_iff depth (Nat.lt_of_succ_lt_succ hdepth) facts

/-! ### Searching -/

/-- **Both searches find a plan or both fail**, since the same descents lead to initial facts. -/
theorem Alike.isSome_eq (ha : g.Alike h p p') (hreach : g.goalsReachable = true) {h' : Graph}
    {answer answer' : Option (List Step)} (hextract : g.extract = (.ok answer, g'))
    (hextract' : h.extract = (.ok answer', h')) : answer'.isSome = answer.isSome := by
  have hreach' : h.goalsReachable = true := ha.goalsReachable.trans hreach
  have hpos := List.length_pos_of_ne_nil ha.left.ladder.ne_nil
  obtain ⟨first, hfirst⟩ : ∃ first, g.levels[g.levels.length - 1]? = some first :=
    ⟨_, List.getElem?_eq_getElem (by omega)⟩
  obtain ⟨first', hfirst', -, hsupports⟩ := ha.exists_level hreg hpp hfirst
  rw [← ha.length] at hfirst'
  rw [Bool.eq_iff_iff, ha.left.isSome_of_extract_iff hreach hextract hfirst,
    ha.right.isSome_of_extract_iff hreach' hextract' hfirst', ha.length]
  refine exists_congr fun facts => ?_
  rw [ha.descends_iff hreg hpp (by omega), hsupports fun _ => .rfl]

/-- **What two searches that fail have learnt blocks the same sets.** -/
theorem Mirrors.extract (hm : g.Mirrors h p p') (hreach : g.goalsReachable = true)
    (hextract : g.extract = (.ok none, g')) :
    ∃ h', h.extract = (.ok none, h') ∧ g'.Mirrors h' p p' := by
  have hreach' : h.goalsReachable = true := hm.goalsReachable.trans hreach
  obtain ⟨answer, h', hextract', ha⟩ := hm.toAlike.extract hreach hextract
  have hnone := hm.toAlike.isSome_eq hreg hpp hreach hextract hextract'
  obtain rfl := Option.isNone_iff_eq_none.1 (Option.isSome_eq_false_iff.1 hnone)
  refine ⟨h', hextract', ha, fun depth hdepth facts => ?_⟩
  rw [(hm.left.keeps_of_extract hreach hextract).2] at hdepth
  rw [hm.left.blocks_of_extract_none_iff hreach hextract hdepth,
    hm.right.blocks_of_extract_none_iff hreach' hextract' (hm.length.symm ▸ hdepth),
    hm.blocks_iff depth hdepth, hm.descends_iff hreg hpp hdepth]

/-! ### Rounds -/

/-- A round that goes on ends alike in the other graph. -/
theorem Mirrors.roundEnds_again (hm : g.Mirrors h p p') (hends : g.RoundEnds .again g') :
    ∃ h', h.RoundEnds .again h' ∧ g'.Mirrors h' p p' := by
  cases hends with
  | unreached hexpand hreach =>
    obtain ⟨h', hexpand', hm'⟩ := hm.expand hreg hpp hexpand
    exact ⟨h', .unreached hexpand' (hm'.goalsReachable.trans hreach), hm'⟩
  | resumed hexpand hreach hextract hmore =>
    obtain ⟨middle, hexpand', hmiddle⟩ := hm.expand hreg hpp hexpand
    obtain ⟨h', hextract', hm'⟩ := hmiddle.extract hreg hpp hreach hextract
    have hsame := hmiddle.fixedPointNoGoods_eq_iff hreach hextract hextract' hm'
    exact ⟨h', .resumed hexpand' (hmiddle.goalsReachable.trans hreach) hextract'
      (hmore.imp (hm'.fixedPoint.trans ·) (mt hsame.1)), hm'⟩

/-- A round that decides ends alike in the other graph. What two searches have learnt that find
plans may differ, since each of them stops at its plan. -/
theorem Mirrors.roundEnds_done (hm : g.Mirrors h p p') {r : PlanResult}
    (hends : g.RoundEnds (.done r) g') : ∃ r' h', h.RoundEnds (.done r') h' ∧
      r.SameOutcome r' ∧ g'.Alike h' p p' := by
  cases hends with
  | exhausted hne hle =>
    obtain ⟨hne', hle'⟩ := hm.limit_iff.2 ⟨hne, hle⟩
    exact ⟨_, h, .exhausted hne' hle', hm.sameOutcome _ _ _, hm.toAlike⟩
  | closed hexpand =>
    obtain ⟨h', hexpand', hm'⟩ := hm.expand hreg hpp hexpand
    exact ⟨_, h', .closed hexpand', hm'.sameOutcome _ _ _, hm'.toAlike⟩
  | found hexpand hreach hextract hbudget =>
    obtain ⟨middle, hexpand', hmiddle⟩ := hm.expand hreg hpp hexpand
    obtain ⟨answer, h', hextract', ha⟩ := hmiddle.toAlike.extract hreach hextract
    have hsome := hmiddle.toAlike.isSome_eq hreg hpp hreach hextract hextract'
    obtain ⟨plan', rfl⟩ := Option.isSome_iff_exists.1 hsome
    rw [← hm.budget, ← hm.layersBuilt] at hbudget
    exact ⟨_, h', .found hexpand' (hmiddle.goalsReachable.trans hreach) hextract' hbudget,
      ha.sameOutcome _ _ _, ha⟩
  | settled hexpand hreach hextract hfixed hsame =>
    obtain ⟨middle, hexpand', hmiddle⟩ := hm.expand hreg hpp hexpand
    obtain ⟨h', hextract', hm'⟩ := hmiddle.extract hreg hpp hreach hextract
    have hsame' := hmiddle.fixedPointNoGoods_eq_iff hreach hextract hextract' hm'
    exact ⟨_, h', .settled hexpand' (hmiddle.goalsReachable.trans hreach) hextract'
      (hm'.fixedPoint ▸ hfixed) (hsame'.2 hsame), hm'.sameOutcome _ _ _, hm'.toAlike⟩

/-- **A round that is to be followed by another one mirrors such a round.** -/
theorem Mirrors.again (hm : g.Mirrors h p p') (hgg : g.Again g') :
    ∃ h', h.Again h' ∧ g'.Mirrors h' p p' := by
  obtain ⟨h', hends, hm'⟩ := hm.roundEnds_again hreg hpp hgg.roundEnds
  refine ⟨h', hends.eq_round fun hlimit => ?_, hm'⟩
  cases hgg.1.symm.trans (round_of_budget_le (hm.limit_iff.1 hlimit)).1

/-- **A round that decides mirrors one that decides alike.** -/
theorem Mirrors.done (hm : g.Mirrors h p p') {r : PlanResult} (hround : g.round.1 = .done r) :
    ∃ r', h.round.1 = .done r' ∧ r.SameOutcome r' ∧ g.round.2.2.Alike h.round.2.2 p p' := by
  by_cases hlimit : g.budget ≠ 0 ∧ g.budget ≤ g.layersBuilt
  · obtain ⟨hdone, hafter⟩ := round_of_budget_le hlimit
    obtain ⟨hdone', hafter'⟩ := round_of_budget_le (hm.limit_iff.2 hlimit)
    obtain rfl := Round.done.inj (hdone.symm.trans hround)
    rw [hafter, hafter']
    exact ⟨_, hdone', hm.sameOutcome _ _ _, hm.toAlike⟩
  · obtain ⟨r', h', hends, houtcome, ha⟩ := hm.roundEnds_done hreg hpp (hround ▸ g.roundEnds)
    obtain ⟨hdone, hafter⟩ := hends.eq_round (mt hm.limit_iff.1 hlimit)
    exact ⟨r', hdone, houtcome, hafter ▸ ha⟩

/-- Rounds that are to be followed by others mirror such rounds. -/
theorem Mirrors.exists_run (hm : g.Mirrors h p p') (hrun : ReflTransGen Again g g') :
    ∃ h', ReflTransGen Again h h' ∧ g'.Mirrors h' p p' := by
  induction hrun with
  | refl => exact ⟨h, .refl, hm⟩
  | tail _ hgg ih =>
    obtain ⟨middle, hrun', hmiddle⟩ := ih
    obtain ⟨h', hhh, hm'⟩ := hmiddle.again hreg hpp hgg
    exact ⟨h', hrun'.tail hhh, hm'⟩

end Operations

end Graph

/-! ### The attempt -/

/-- **A problem in two orders is loaded alike.** -/
theorem Problem.exists_mirrors {p p' : Problem} (hreg : ∀ s ∈ p.schemas, s.Regular)
    (hpp : p.Reordered p') {strict : Bool} {budget : Int} {g : Graph}
    (hg : p.graph strict budget = .ok g) :
    ∃ h, p'.graph strict budget = .ok h ∧ g.Mirrors h p p' := by
  have hreg' := hpp.regular hreg
  have hleft := consistent_of_graph hreg hg
  have hpos : ¬budget < 0 := by
    intro hneg
    rw [graph_eq hreg, if_pos hneg] at hg
    cases hg
  have hh := graph_eq hreg' strict budget
  rw [if_neg hpos] at hh
  have hright := consistent_of_graph hreg' hh
  refine ⟨_, hh, ?_⟩
  rw [graph_eq hreg, if_neg hpos] at hg
  obtain rfl := Except.ok.inj hg
  have ha : Graph.Alike _ _ p p' := ⟨hleft, hright, rfl, rfl, rfl, rfl, rfl, rfl⟩
  refine ⟨ha, fun depth hdepth facts => ?_⟩
  obtain rfl := Nat.lt_one_iff.1 hdepth
  exact ha.blocks_iff_of_noGoods_eq_nil hreg hpp rfl rfl rfl rfl

namespace Graph

/-- **The order of a problem does not matter.** If schemas, initial facts and goals come in another
order, then the attempt to solve ends with an answer if it did so before, in either mode and with
whatever limit. The answer has the same status, the numbers of levels and of searches are the same,
the fixed point is the same level, and level by level the facts, the actions and the exclusions
among them are the same. -/
theorem same_outcome_of_reordered {text : String} {p p' : Problem}
    (hp : Problem.parse text = .ok p) (hpp : p.Reordered p') {strict : Bool} {budget : Int}
    {g : Graph} (hg : p.graph strict budget = .ok g) {r : PlanResult}
    (hsolve : g.solve.1 = .done r) : ∃ g' r', p'.graph strict budget = .ok g' ∧
      g'.solve.1 = .done r' ∧ r.SameOutcome r' ∧
      List.Forall₂ Level.Alike g.solve.2.2.levels g'.solve.2.2.levels := by
  have hreg := Problem.regular_of_parse hp
  have hreg' := hpp.regular hreg
  obtain ⟨h, hh, hm⟩ := Problem.exists_mirrors hreg hpp hg
  obtain ⟨before, hrun, hround, hafter⟩ :=
    exists_round_of_solve (by simp [hsolve]) hm.left.ladder.ne_nil
  obtain ⟨before', hrun', hm'⟩ := hm.exists_run hreg hpp hrun
  obtain ⟨r', hround', houtcome, ha⟩ := hm'.done hreg hpp (hround.trans hsolve)
  obtain ⟨hdecided, hgraph⟩ := Problem.solve_eq_round hreg' hh hrun' (by simp [hround'])
  rw [hafter, ← hgraph] at ha
  exact ⟨h, r', hh, hdecided.trans hround', houtcome, (ha.levels hreg hpp).1⟩

/-- A lamp is switched on and off, and a thing is wanted that takes light and darkness at once. -/
def twilightText : String :=
  "on :: dark => not dark, light. off :: light => not light, dark. " ++
  "mix :: dark, light => twilight. dark. lamp. goal twilight. goal lamp."

/-- There is no twilight, in whatever order this is said. Without strict mode it takes four searches
to come out. -/
theorem same_outcome_twilight : ∃ p p' g r, Problem.parse twilightText = .ok p ∧
    p.Reordered p' ∧ p'.initial = p.initial.reverse ∧ p.graph false 0 = .ok g ∧
    g.solve.1 = .done r ∧ r.status = .unsolvable ∧ r.attempts = 4 ∧
    ∃ g' r', p'.graph false 0 = .ok g' ∧ g'.solve.1 = .done r' ∧ r.SameOutcome r' ∧
      List.Forall₂ Level.Alike g.solve.2.2.levels g'.solve.2.2.levels := by
  have hanswer : (Problem.outcome? twilightText false 0).any (fun r =>
      decide (r.status = .unsolvable) && decide (r.attempts = 4)) = true := by decide +kernel
  obtain ⟨r, houtcome, hanswer⟩ := (Option.any_eq_true _ _).1 hanswer
  obtain ⟨p, g, hp, hg, hsolve⟩ := Problem.exists_of_outcome?_eq_some houtcome
  obtain ⟨hstatus, hattempts⟩ := Bool.and_eq_true_iff.1 hanswer
  have hpp : p.Reordered ⟨p.schemas.reverse, p.initial.reverse, p.goals.reverse⟩ :=
    ⟨(List.reverse_perm _).symm, (List.reverse_perm _).symm, (List.reverse_perm _).symm⟩
  exact ⟨p, _, g, r, hp, hpp, rfl, hg, hsolve, of_decide_eq_true hstatus,
    of_decide_eq_true hattempts, same_outcome_of_reordered hp hpp hg hsolve⟩

end Graph

end Strips
