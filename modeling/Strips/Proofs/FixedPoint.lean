import Strips.Proofs.Consistency

/-!
# The fixed point

What is derived from a level depends on its facts and on the exclusions among them, and not on the
order in which they are kept. When a level has the facts and the exclusions of its predecessor, the
same actions are therefore found again, and the level that follows is the same once more. From there
on nothing changes: no expansion runs into a level that differs from its predecessor, and goals that
are not supported when the fixed point is reached are not supported later.

## Main definitions

* `Level.SameAs` – levels with the same facts, actions and exclusions.
* `Graph.Closed` – the fixed point is reached and the goals are not supported.

## Main results

* `Graph.IsFixed.sameAs` – from the fixed point on all levels are the same.
* `Graph.Closed.expand`, `Graph.Closed.calls` – a closed graph stays closed.
* `Graph.fixedPoint_holds` – what this means for all expansions.
-/

namespace Strips

namespace Level

/-- The levels have the same facts and the same steps, and the same of them exclude each other. -/
structure SameAs (level other : Level) : Prop where
  mem_facts : ∀ f, f ∈ level.facts.facts ↔ f ∈ other.facts.facts
  isMutex_facts : ∀ f g, level.facts.isMutex f g = other.facts.isMutex f g
  actions : ∃ actions actions', level.actions = some actions ∧ other.actions = some actions' ∧
    (∀ s, actions.steps.contains s = actions'.steps.contains s) ∧
    ∀ s t, actions.isMutex s t = actions'.isMutex s t

/-- Levels that were derived from the same layer are the same. -/
theorem Follows.sameAs {schemas : List Schema} {strict : Bool} {newer older newer' older' : Level}
    (h : newer.Follows schemas strict older) (h' : newer'.Follows schemas strict older')
    (hreg : ∀ s ∈ schemas, s.Regular) (hb : older.facts.Below older'.facts)
    (hb' : older'.facts.Below older.facts) : newer.SameAs newer' := by
  have hfacts := h.mono h' hreg hb
  have hfacts' := h'.mono h hreg hb'
  have hmutex := h.sound.isMutex_eq h'.sound hfacts hfacts'
  obtain ⟨actions, hactions, hover, -⟩ := h
  obtain ⟨actions', hactions', hover', -⟩ := h'
  exact ⟨fun f => ⟨hfacts.mem f, hfacts'.mem f⟩, hmutex, actions, actions', hactions, hactions',
    hover.contains_eq hover' hreg hb hb', hover.isMutex_eq hover' hreg hb hb'⟩

end Level

namespace Graph

namespace IsFixed

variable {g : Graph} {p : Problem} {number depth : Nat} {fixed before : Level}

/-- A level that is the same as its predecessor is a fixed point, whatever the graph records. -/
theorem of_level? {n : Nat} (hbefore : g.level? n = some before)
    (hfixed : g.level? (n + 1) = some fixed) (hsame : before.facts.same fixed.facts = true) :
    g.IsFixed (n + 1) (g.levels.length - 1 - (n + 1)) fixed before := by
  obtain ⟨hlt, hget⟩ := getElem?_of_level?_eq hfixed
  obtain ⟨-, hget'⟩ := getElem?_of_level?_eq hbefore
  have hdepth : g.levels.length - 1 - (n + 1) + 1 = g.levels.length - 1 - n := by omega
  exact ⟨by omega, hget, hdepth ▸ hget', hsame⟩

variable (hreg : ∀ s ∈ p.schemas, s.Regular) (hl : Ladder p g.strict g.levels)
  (h : g.IsFixed number depth fixed before)

include hreg hl h

/-- **From the fixed point on all levels are the same.** -/
theorem sameAs {m : Nat} {level : Level} (hm : number ≤ m) (hlevel : g.level? m = some level) :
    level.SameAs fixed := by
  obtain ⟨hlt, hget⟩ := getElem?_of_level?_eq hlevel
  have hlen := h.length_eq
  have hbefore := (List.getElem?_eq_some_iff.1 h.get_before).1
  have hnext := List.getElem?_eq_getElem (l := g.levels) (i := g.levels.length - 1 - m + 1)
    (by omega)
  obtain ⟨hb, hb'⟩ := h.below_before hreg hl hnext (by omega)
  exact (hl.follows hget hnext).sameAs (hl.follows h.get_fixed h.get_before) hreg hb hb'

/-- Each fact of the newest level was kept before. -/
theorem exists_keep {newest : Level} (hnewest : g.levels[0]? = some newest) :
    ∀ f ∈ newest.facts.facts, ∃ k, Step.keep f = .ok k := by
  intro f hf
  obtain ⟨actions, -, hover, -⟩ := hl.follows h.get_fixed h.get_before
  obtain ⟨k, -, hkeep⟩ :=
    hover.keeps f ((h.below_before hreg hl hnewest (Nat.zero_le _)).1.mem f hf)
  exact ⟨k, hkeep⟩

end IsFixed

/-! ### Closed graphs -/

/-- The fixed point is reached and the goals are not supported. -/
structure Closed (g : Graph) (p : Problem) (goals : List Fact) : Prop where
  consistent : g.Consistent p goals
  fixed : ∃ number, g.fixedPoint = some number
  unreachable : g.goalsReachable = false
  unsupported : ∀ newest, g.levels[0]? = some newest → newest.facts.supports goals = false

namespace Closed

variable {g g' : Graph} {p : Problem} {goals : List Fact}

/-- When an expansion says that the graph cannot grow any more, the graph is closed. -/
theorem of_expand (h : g.Consistent p goals) (hexpand : g.expand = (.ok false, g')) :
    g'.Closed p goals := by
  obtain ⟨hnext, newest, rest, level, -, -, -, hlevels, -, hreach, -, hgrew⟩ := h.expand hexpand
  obtain ⟨hunreachable, hsome⟩ := Bool.or_eq_false_iff.1 hgrew.symm
  refine ⟨hnext, Option.ne_none_iff_exists'.1 fun hnone => ?_, hunreachable, fun top htop => ?_⟩
  · rw [hnone] at hsome
    cases hsome
  · rw [hlevels] at htop
    obtain rfl := Option.some.inj htop
    exact hreach.symm.trans hunreachable

/-- **A closed graph can be expanded, and what comes is closed.** -/
theorem expand (hreg : ∀ s ∈ p.schemas, s.Regular) (h : g.Closed p goals) :
    ∃ g', g.expand = (.ok false, g') ∧ g'.Closed p goals := by
  obtain ⟨number, hnumber⟩ := h.fixed
  obtain ⟨depth, fixed, before, hfixed⟩ := h.consistent.fixed number hnumber
  rcases hexpand : g.expand with ⟨e | grew, g'⟩
  · obtain ⟨-, newest, rest, hlevels, f, hf, cause, hkeep, -⟩ :=
      h.consistent.expand_eq_error hreg hexpand
    have hnewest : g.levels[0]? = some newest := by rw [hlevels]; rfl
    obtain ⟨k, hk⟩ := hfixed.exists_keep hreg h.consistent.ladder hnewest f hf
    cases hkeep.symm.trans hk
  · obtain ⟨hnext, newest, rest, level, hlevels, hfollows, -, hlevels', -, hreach, hfixedPoint,
      hgrew⟩ := h.consistent.expand hexpand
    have hnewest : g.levels[0]? = some newest := by rw [hlevels]; rfl
    have hsound := h.consistent.ladder.sound newest (List.mem_of_getElem? hnewest)
    -- the level that comes is the newest one again, which does not support the goals
    have hsame := hfixed.same_of_follows hreg h.consistent.ladder hnewest hfollows
    have hbelow := ((hsound.same_iff hfollows.sound).1 hsame).2
    have hno : level.facts.supports goals = false := Bool.eq_false_iff.2 fun hs =>
      Bool.eq_false_iff.1 (h.unsupported newest hnewest) (hbelow.supports hfollows.sound hsound hs)
    rw [hnumber] at hfixedPoint
    rw [hreach, hno, hfixedPoint] at hgrew
    subst hgrew
    exact ⟨g', rfl, of_expand h.consistent hexpand⟩

/-- There is nothing to search for on a closed graph. -/
theorem extract (h : g.Closed p goals) : g.extract = (.ok none, g) := by
  rw [Graph.extract, if_neg (by simpa using h.consistent.ladder.ne_nil),
    if_pos (by simp [h.unreachable])]

theorem call (hreg : ∀ s ∈ p.schemas, s.Regular) (h : g.Closed p goals) (c : Call) :
    (g.call c).Closed p goals := by
  cases c with
  | expand =>
    obtain ⟨g', hexpand, h'⟩ := h.expand hreg
    rwa [Graph.call, hexpand]
  | extract => rwa [Graph.call, h.extract]

/-- **A closed graph stays closed.** -/
theorem calls (hreg : ∀ s ∈ p.schemas, s.Regular) (h : g.Closed p goals) (cs : List Call) :
    (g.calls cs).Closed p goals := by
  induction cs generalizing g with
  | nil => exact h
  | cons c cs ih => exact ih (h.call hreg c)

end Closed

theorem calls_append (g : Graph) (cs cs' : List Call) :
    g.calls (cs ++ cs') = (g.calls cs).calls cs' := List.foldl_append

/-- **The fixed point holds.** After any number of expansions and searches an expansion fails only
at a fact that no step can keep, all levels from the first one on that is the same as its
predecessor are the same, and when an expansion said that the graph cannot grow any more, all later
ones say so too and the goals stay out of reach. -/
theorem fixedPoint_holds {text : String} {p : Problem} (hp : Problem.parse text = .ok p)
    {strict : Bool} {budget : Int} {g : Graph} (hg : p.graph strict budget = .ok g)
    (calls : List Call) :
    (∀ e, (g.calls calls).expand.1 = .error e → ∃ arity, arity ≠ 2 ∧
      e = .layer (.schema (.distinctArity noopName arity))) ∧
    (∀ n before fixed, (g.calls calls).level? n = some before →
      (g.calls calls).level? (n + 1) = some fixed → before.facts.same fixed.facts = true →
      ∀ m level, n + 1 ≤ m → (g.calls calls).level? m = some level → level.SameAs fixed) ∧
    ((g.calls calls).expand.1 = .ok false → ∀ more,
      (g.calls (calls ++ .expand :: more)).expand.1 = .ok false ∧
        (g.calls (calls ++ .expand :: more)).isGoalReachable = .ok false) := by
  have hreg := Problem.regular_of_parse hp
  have h := (Problem.consistent_of_graph hreg hg).calls hreg calls
  simp only [calls_append]
  generalize g.calls calls = g at h
  refine ⟨fun e he => ?_, fun n before fixed hbefore hfixed hsame m level hm hlevel => ?_,
    fun hclosed more => ?_⟩
  · obtain ⟨-, -, -, -, f, -, cause, hkeep, rfl⟩ := h.expand_eq_error hreg (Prod.ext he rfl)
    obtain ⟨-, arity, harity, rfl⟩ := Step.keep_eq_error hkeep
    exact ⟨arity, harity, rfl⟩
  · exact (IsFixed.of_level? hbefore hfixed hsame).sameAs hreg h.ladder hm hlevel
  · have hnext : (g.expand.2).Closed p (Problem.eachOnce p.goals) :=
      Closed.of_expand h (Prod.ext hclosed rfl)
    have hlater : (g.calls (.expand :: more)).Closed p (Problem.eachOnce p.goals) :=
      hnext.calls hreg more
    obtain ⟨g', hexpand, -⟩ := hlater.expand hreg
    refine ⟨by rw [hexpand], ?_⟩
    rw [isGoalReachable, if_neg (by simpa using hlater.consistent.ladder.ne_nil),
      hlater.unreachable]

/-- A road there and back, and an island as the goal. -/
def islandText : String :=
  "go :: at(X), to(X,Y) => not at(X), at(Y). at(a). to(a,b). to(b,a). goal at(c)."

/-- From the third level on nothing changes, and the island is out of reach. -/
theorem fixedPoint_holds_island : ∃ p g before fixed, Problem.parse islandText = .ok p ∧
    p.graph false 0 = .ok g ∧ (g.calls (.replicate 4 .expand)).level? 2 = some before ∧
    (g.calls (.replicate 4 .expand)).level? 3 = some fixed ∧
    (∀ m level, 3 ≤ m → (g.calls (.replicate 4 .expand)).level? m = some level →
      level.SameAs fixed) ∧
    ∀ more, (g.calls (.replicate 4 .expand ++ .expand :: more)).expand.1 = .ok false ∧
      (g.calls (.replicate 4 .expand ++ .expand :: more)).isGoalReachable = .ok false := by
  have hread : (Problem.graphAfter? islandText false (.replicate 4 .expand)).any (fun g =>
      g.expand.1.toOption == some false && (g.level? 2).any fun before =>
        (g.level? 3).any fun fixed => before.facts.same fixed.facts) = true := by
    decide +kernel
  obtain ⟨_, hafter, hread⟩ := (Option.any_eq_true _ _).1 hread
  obtain ⟨p, g, hp, hg, rfl⟩ := Problem.exists_of_graphAfter?_eq_some hafter
  obtain ⟨hanswer, hlevels⟩ := Bool.and_eq_true_iff.1 hread
  obtain ⟨before, hbefore, hlevels⟩ := (Option.any_eq_true _ _).1 hlevels
  obtain ⟨fixed, hfixed, hsame⟩ := (Option.any_eq_true _ _).1 hlevels
  have hclosed := eq_ok_of_toOption_eq_some (eq_of_beq hanswer)
  obtain ⟨-, hlater, hstays⟩ := fixedPoint_holds hp hg (.replicate 4 .expand)
  exact ⟨p, g, before, fixed, hp, hg, hbefore, hfixed,
    hlater 2 before fixed hbefore hfixed hsame, hstays hclosed⟩

end Graph

end Strips
