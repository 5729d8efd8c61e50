import Strips.Problem
import Strips.Proofs.Descent
import Strips.Proofs.Parallel

/-!
# Ladders of levels

The levels of a planning graph form a ladder: the last holds the initial facts, and each one follows
the one after it. Going up a ladder facts persist and exclusions do not come back, and a level
supports every state that is reached in as many parallel steps as there are levels below it. A set
of facts that is blocked at a level is therefore in none of these states.

## Main definitions

* `Ladder` – levels, newest first, each derived from the one before.
* `Problem.ReservesDistinct` – the name of the constraints is used for nothing else.

## Main results

* `Ladder.ordered` – an earlier level is below a later one.
* `Ladder.supports` – a level supports what is reached in as many steps as lead to it.
* `Ladder.exists_not_mem_of_blocked` – no such state contains a set that is blocked there.
-/

namespace Strips

/-- Levels, newest first, each derived from the one before; the initial level holds the initial
facts, none of which excludes another one. -/
inductive Ladder (p : Problem) (strict : Bool) : List Level → Prop
  | start {level : Level} (hsound : level.facts.Sound)
      (hmem : ∀ f, f ∈ level.facts.facts ↔ f ∈ p.initial)
      (hfree : ∀ f g, level.facts.isMutex f g = false) (hactions : level.actions = none) :
      Ladder p strict [level]
  | step {newer older : Level} {rest : List Level} (h : newer.Follows p.schemas strict older)
      (hrest : Ladder p strict (older :: rest)) : Ladder p strict (newer :: older :: rest)

/-- The levels as the search sees them. -/
abbrev stagesOf (levels : List Level) : List (Stage Fact Step) := levels.map Level.stage

theorem getElem?_stagesOf {levels : List Level} {i : Nat} {level : Level}
    (h : levels[i]? = some level) : (stagesOf levels)[i]? = some level.stage := by
  rw [stagesOf, List.getElem?_map, h]
  rfl

theorem Level.lawful_of_start {level : Level} (hs : level.facts.Sound)
    (hactions : level.actions = none) : level.stage.Lawful := by
  have hmutex : ∀ s t, level.stage.isMutex s t = false := fun s t => by
    simp only [Level.stage, Level.isMutex, hactions]
  exact ⟨hs.supports_mono, fun _ _ => by rw [hmutex, hmutex], fun s t => by rw [hmutex, hmutex],
    fun s => hmutex s s⟩

theorem Level.Follows.lawful {schemas : List Schema} {strict : Bool} {newer older : Level}
    (h : newer.Follows schemas strict older) (hs : older.facts.Sound) : newer.stage.Lawful := by
  obtain ⟨actions, hactions, hover, hafter⟩ := h
  have hmutex : ∀ s t, newer.stage.isMutex s t = actions.isMutex s t := fun s t => by
    simp only [Level.stage, Level.isMutex, hactions]
  refine ⟨hafter.sound.supports_mono, fun hst hst' => ?_, fun s t => ?_, fun s => ?_⟩
  · rw [hmutex, hmutex, actions.isMutex_congr hst hst']
  · rw [hmutex, hmutex, hover.isMutex_comm hs]
  · rw [hmutex, hover.isMutex_eq_false BEq.rfl]

/-- Levels that were derived from the same layer do not differ. -/
theorem Level.Follows.agrees {schemas : List Schema} {strict : Bool}
    {newer older newer' older' : Level} (h : newer.Follows schemas strict older)
    (h' : newer'.Follows schemas strict older') (hreg : ∀ s ∈ schemas, s.Regular)
    (hb : older.facts.Below older'.facts) (hb' : older'.facts.Below older.facts) :
    newer.stage.Agrees newer'.stage := by
  have hfacts := h.mono h' hreg hb
  have hfacts' := h'.mono h hreg hb'
  obtain ⟨actions, hactions, hover, hafter⟩ := h
  obtain ⟨actions', hactions', hover', hafter'⟩ := h'
  refine ⟨fun facts => Bool.eq_iff_iff.2 ⟨?_, ?_⟩, fun s t => ?_, fun f s => Bool.eq_iff_iff.2 ?_⟩
  · exact hfacts.supports hafter.sound hafter'.sound
  · exact hfacts'.supports hafter'.sound hafter.sound
  · simp only [stage, isMutex, hactions, hactions']
    exact hover.isMutex_eq hover' hreg hb hb' s t
  · have hs := hafter'.contains_support f s
    rw [← hover.contains_eq hover' hreg hb hb' s] at hs
    exact (hafter.contains_support f s).trans hs.symm

namespace Ladder

variable {p : Problem} {strict : Bool} {levels : List Level}

theorem ne_nil (h : Ladder p strict levels) : levels ≠ [] := by
  cases h <;> exact List.cons_ne_nil _ _

theorem sound (h : Ladder p strict levels) : ∀ level ∈ levels, level.facts.Sound := by
  induction h with
  | start hsound => exact fun level hl => List.mem_singleton.1 hl ▸ hsound
  | step hfollows _ ih => exact List.forall_mem_cons.2 ⟨hfollows.sound, ih⟩

theorem lawful (h : Ladder p strict levels) : ∀ stage ∈ stagesOf levels, stage.Lawful := by
  induction h with
  | start hsound _ _ hactions =>
    exact fun stage hs => List.mem_singleton.1 hs ▸ Level.lawful_of_start hsound hactions
  | step hfollows hrest ih =>
    exact List.forall_mem_cons.2 ⟨hfollows.lawful (hrest.sound _ List.mem_cons_self), ih⟩

/-- The lower part of a ladder is a ladder. -/
theorem drop (h : Ladder p strict levels) : ∀ {n : Nat}, n < levels.length →
    Ladder p strict (levels.drop n) := by
  induction h with
  | start hsound hmem hfree hactions =>
    intro n hn
    obtain rfl : n = 0 := Nat.lt_one_iff.1 hn
    exact .start hsound hmem hfree hactions
  | step hfollows hrest ih =>
    intro n hn
    cases n with
    | zero => exact .step hfollows hrest
    | succ n => exact ih (Nat.lt_of_succ_lt_succ hn)

theorem follows (h : Ladder p strict levels) {i : Nat} {newer older : Level}
    (hi : levels[i]? = some newer) (hi' : levels[i + 1]? = some older) :
    newer.Follows p.schemas strict older := by
  induction h generalizing i with
  | start => cases hi'
  | step hfollows _ ih =>
    cases i with
    | zero =>
      cases hi
      cases hi'
      exact hfollows
    | succ i => exact ih hi hi'

/-- **Going up, facts persist and exclusions do not come back.** -/
theorem ordered (h : Ladder p strict levels) :
    levels.Pairwise fun newer older => older.facts.Below newer.facts := by
  induction h with
  | start => exact List.pairwise_singleton _ _
  | step hfollows _ ih =>
    refine List.pairwise_cons.2 ⟨fun level hl => ?_, ih⟩
    rcases List.mem_cons.1 hl with rfl | hl
    · exact hfollows.below
    · exact (List.rel_of_pairwise_cons ih hl).trans hfollows.below

theorem below_of_le (h : Ladder p strict levels) {i j : Nat} {newer older : Level} (hij : i ≤ j)
    (hi : levels[i]? = some newer) (hj : levels[j]? = some older) :
    older.facts.Below newer.facts := by
  rcases Nat.lt_or_eq_of_le hij with hlt | rfl
  · obtain ⟨hi', rfl⟩ := List.getElem?_eq_some_iff.1 hi
    obtain ⟨hj', rfl⟩ := List.getElem?_eq_some_iff.1 hj
    exact List.pairwise_iff_getElem.1 h.ordered i j hi' hj' hlt
  · obtain rfl := Option.some.inj (hi.symm.trans hj)
    exact .refl _

/-! ### What is reached -/

/-- **A level supports every state that is reached in as many steps as lead to it.** -/
theorem supports (hreg : ∀ s ∈ p.schemas, s.Regular) {top : Level} {rest : List Level}
    (h : Ladder p strict (top :: rest)) {state : State} (hstate : p.ReachableIn rest.length state) :
    top.facts.supports state = true := by
  generalize hlevels : top :: rest = levels at h
  induction h generalizing top rest state with
  | start hsound hmem hfree _ =>
    obtain ⟨rfl, rfl⟩ := List.cons.inj hlevels
    cases hstate with
    | start hinitial =>
      exact hsound.supports_iff.2
        ⟨fun f hf => (hmem f).2 ((hinitial f).1 hf), fun f _ g _ => hfree f g⟩
  | step hfollows hrest ih =>
    obtain ⟨rfl, rfl⟩ := List.cons.inj hlevels
    cases hstate with
    | step hbefore hstep =>
      have hsound := hrest.sound _ List.mem_cons_self
      exact (hfollows.exists_covers hreg hsound (ih hbefore rfl) hstep).1

theorem supports_of_getElem? (hreg : ∀ s ∈ p.schemas, s.Regular) (h : Ladder p strict levels)
    {i count : Nat} {level : Level} (hi : levels[i]? = some level)
    (hcount : count + i < levels.length) {state : State} (hstate : p.ReachableIn count state) :
    level.facts.supports state = true := by
  obtain ⟨hlt, rfl⟩ := List.getElem?_eq_some_iff.1 hi
  have hdrop := h.drop hlt
  rw [List.drop_eq_getElem_cons hlt] at hdrop
  exact hdrop.supports hreg (hstate.mono (by rw [List.length_drop]; omega))

/-- **A set of facts that is blocked at a level is in no state that is reached there.** -/
theorem exists_not_mem_of_blocked (hreg : ∀ s ∈ p.schemas, s.Regular) {top : Level}
    {rest : List Level} (h : Ladder p strict (top :: rest)) {noGoods : NoGoods Fact}
    (hr : Regressive Step.preconditions (stagesOf (top :: rest)) noGoods) {facts : List Fact}
    (hb : Blocked (stagesOf (top :: rest)) noGoods facts) {state : State}
    (hstate : p.ReachableIn rest.length state) : ∃ f ∈ facts, f ∉ state := by
  generalize hlevels : top :: rest = levels at h
  induction h generalizing top rest state noGoods facts with
  | @start level hsound hmem hfree hactions =>
    obtain ⟨rfl, rfl⟩ := List.cons.inj hlevels
    have hladder : Ladder p strict [top] := .start hsound hmem hfree hactions
    have hsupports := hladder.supports hreg hstate
    by_contra! hsub
    rcases hb with hb | hb
    · rw [(Level.lawful_of_start hsound hactions).supports_mono hsub hsupports] at hb
      cases hb
    · rw [show noGoods.headD [] = [] from hr] at hb
      cases hb
  | @step newer older below hfollows hrest ih =>
    obtain ⟨rfl, rfl⟩ := List.cons.inj hlevels
    have hsound := hrest.sound _ List.mem_cons_self
    cases hstate with
    | step hbefore hstep =>
      obtain ⟨hsupports, chosen, hcovers, hneeds⟩ :=
        hfollows.exists_covers hreg hsound (supports hreg hrest hbefore) hstep
      by_contra! hsub
      rcases hb with hb | hb
      · rw [(hfollows.lawful hsound).supports_mono hsub hsupports] at hb
        cases hb
      · -- the cover of the state is one of a no-good, so it needs what cannot have been there
        obtain ⟨noGood, hmem, hnoGood⟩ := containsNoGood_iff.1 hb
        have hbelow := hr.1 noGood hmem chosen (hcovers.mono fun f hf => hsub f (hnoGood f hf))
        obtain ⟨f, hf, hno⟩ := ih hr.2 hbelow hbefore rfl
        exact hno (hneeds f hf)

end Ladder

/-! ### The name of the constraints -/

/-- No fact, goal or effect is named like the constraints among preconditions. -/
def Problem.ReservesDistinct (p : Problem) : Prop :=
  (∀ f ∈ p.initial ++ p.goals, f.name ≠ distinctName) ∧
    ∀ s ∈ p.schemas, ∀ l ∈ s.action.negative.members ++ s.action.positive.members,
      l.name ≠ distinctName

instance (p : Problem) : Decidable p.ReservesDistinct := inferInstanceAs (Decidable (_ ∧ _))

/-- In a problem that reserves the name no level holds a fact that is named so. -/
theorem Ladder.name_ne_distinct {p : Problem} (hreg : ∀ s ∈ p.schemas, s.Regular)
    (hd : p.ReservesDistinct) {strict : Bool} {levels : List Level} (h : Ladder p strict levels) :
    ∀ level ∈ levels, ∀ f ∈ level.facts.facts, f.name ≠ distinctName := by
  induction h with
  | start _ hmem =>
    refine List.forall_mem_singleton.2 fun f hf => ?_
    exact hd.1 f (List.mem_append_left _ ((hmem f).1 hf))
  | step hfollows _ ih =>
    refine List.forall_mem_cons.2 ⟨fun f hf => ?_, ih⟩
    obtain ⟨actions, -, hover, hafter⟩ := hfollows
    obtain ⟨t, ht, hft⟩ := (hafter.mem_facts f).1 hf
    rcases hover.origin t ht with ⟨g, hg, hkeep⟩ | ⟨s, hs, hinst⟩
    · obtain ⟨-, -, hadd, -⟩ := Step.keep_eq_ok hkeep
      rw [hadd, List.mem_singleton] at hft
      exact hft ▸ ih _ List.mem_cons_self g hg
    · obtain ⟨σ, -, rfl, -⟩ := (hreg s hs).exists_under hinst
      obtain ⟨l, hl, rfl⟩ := LiteralSet.mem_under.1 hft
      exact hd.2 s hs l (List.mem_append_right _ hl)

end Strips
