import Strips.Proofs.Consistency

/-!
# Exclusions are sound

A planning graph says of each number of steps which facts may then be true and which of them may
not be true together, and which steps may be taken next and which of them may not be taken together.
None of this rules out anything that happens. A state that is reached in a number of parallel steps
has its facts in the level of that number, without an exclusion among them, and what can be done in
it is in the actions of the level that follows: the steps that are taken exclude neither each other
nor the steps that keep what they leave alone.

## Main definitions

* `Level.Admits` – what can be done in a state is in the actions of a level.

## Main results

* `Level.Follows.admits` – a level admits what can be done in states that the level before supports.
* `Graph.admits_of_reachableIn` – so it does in the states that are reached.
-/

namespace Strips

namespace Level

/-- What can be done in a state is in the actions of a level: instances that are taken at once are
among its steps, and they exclude neither each other nor the steps that keep those facts of the
state which they leave alone. -/
def Admits (level : Level) (p : Problem) (state : State) : Prop :=
  ∃ actions, level.actions = some actions ∧ ∀ steps : List Step,
    (∀ t ∈ steps, p.IsInstance t) → (∀ t ∈ steps, ∀ f ∈ t.preconditions, f ∈ state) →
    (∀ s ∈ steps, ∀ t ∈ steps, (s == t) = false → ¬ s.Disturbs t) →
      (∀ t ∈ steps, actions.steps.contains t = true) ∧
      (∀ s ∈ steps, ∀ t ∈ steps, actions.isMutex s t = false) ∧
      ∀ f ∈ state, (∀ t ∈ steps, f ∉ t.deleted) → ∃ k ∈ actions.steps, Step.keep f = .ok k ∧
        ∀ t ∈ steps, actions.isMutex t k = false ∧ actions.isMutex k t = false

/-- **A level admits what can be done in states that the level before supports.** -/
theorem Follows.admits {p : Problem} (hreg : ∀ s ∈ p.schemas, s.Regular) {strict : Bool}
    {newer older : Level} (h : newer.Follows p.schemas strict older) (hs : older.facts.Sound)
    {state : State} (hsupports : older.facts.supports state = true) : newer.Admits p state := by
  obtain ⟨actions, hactions, hover, -⟩ := h
  refine ⟨actions, hactions, fun steps hinstances happly hindependent => ?_⟩
  obtain ⟨next, hstep⟩ := Problem.exists_parallelStep hinstances happly hindependent
  refine ⟨fun t ht => ?_, fun s hs' t ht => ?_, fun f hf hkept => ?_⟩
  · exact hover.contains_of_isInstance hs hsupports hreg (hinstances t ht) (happly t ht)
  · exact hover.isMutex_eq_false_of_parallelStep hs hsupports hstep hs' ht
  · obtain ⟨k, hk, hkeep⟩ := hover.keeps f ((hs.supports_iff.1 hsupports).1 f hf)
    have hfree : ∀ t ∈ steps, actions.isMutex t k = false := fun t ht =>
      hover.isMutex_keep_eq_false hs hsupports hstep ht hf (hkept t ht) hkeep
    exact ⟨k, hk, hkeep, fun t ht => ⟨hfree t ht, hover.isMutex_comm hs k t ▸ hfree t ht⟩⟩

end Level

namespace Graph

variable {g : Graph} {p : Problem} {goals : List Fact}

/-- **Exclusions are sound.** What is reached in a number of parallel steps is in the level of that
number, no two facts of it exclude each other there, and the level that follows admits what can be
done in it. -/
theorem admits_of_reachableIn {text : String} (hp : Problem.parse text = .ok p)
    {strict : Bool} {budget : Int} (hg : p.graph strict budget = .ok g) (calls : List Call)
    {count : Nat} {older newer : Level} (holder : (g.calls calls).level? count = some older)
    (hnewer : (g.calls calls).level? (count + 1) = some newer) {state : State}
    (hstate : p.ReachableIn count state) :
    (∀ f ∈ state, f ∈ older.facts.facts) ∧
      (∀ f ∈ state, ∀ g ∈ state, older.facts.isMutex f g = false) ∧ newer.Admits p state := by
  have hreg := Problem.regular_of_parse hp
  have h := (Problem.consistent_of_graph hreg hg).calls hreg calls
  generalize g.calls calls = g at h holder hnewer
  obtain ⟨hlt, hget⟩ := getElem?_of_level?_eq holder
  obtain ⟨hlt', hget'⟩ := getElem?_of_level?_eq hnewer
  have hdepth : g.levels.length - 1 - count = g.levels.length - 1 - (count + 1) + 1 := by omega
  rw [hdepth] at hget
  have hsound := h.ladder.sound older (List.mem_of_getElem? hget)
  have hsupports := h.ladder.supports_of_getElem? hreg hget (by omega) hstate
  obtain ⟨hmem, hfree⟩ := hsound.supports_iff.1 hsupports
  exact ⟨hmem, hfree, (h.ladder.follows hget' hget).admits hreg hsound hsupports⟩

/-- One match, two lamps. -/
def lampText : String :=
  "light :: match(X), lamp(Y) => not match(X), lit(Y)." ++
  "match(m). lamp(a). lamp(b). goal lit(a). goal lit(b)."

/-- When the first lamp was lit, the match is gone and nothing can be lit any more. -/
theorem admits_lamp : ∃ p g older newer state, Problem.parse lampText = .ok p ∧
    p.graph true 0 = .ok g ∧ (g.calls [.expand, .expand]).level? 1 = some older ∧
    (g.calls [.expand, .expand]).level? 2 = some newer ∧ p.ReachableIn 1 state ∧
    state = [⟨"lamp", ["a"]⟩, ⟨"lamp", ["b"]⟩, ⟨"lit", ["a"]⟩] ∧
    (∀ f ∈ state, f ∈ older.facts.facts) ∧
    (∀ f ∈ state, ∀ g ∈ state, older.facts.isMutex f g = false) ∧ newer.Admits p state := by
  have hlevels : ((Problem.graphAfter? lampText true [.expand, .expand]).map fun g =>
      ((g.level? 1).isSome, (g.level? 2).isSome)) = some (true, true) := by
    decide +kernel
  obtain ⟨_, hafter, hpair⟩ := Option.map_eq_some_iff.1 hlevels
  obtain ⟨p, g, hp, hg, rfl⟩ := Problem.exists_of_graphAfter?_eq_some hafter
  obtain ⟨holder, hnewer⟩ := Prod.mk.inj hpair
  obtain ⟨older, holder⟩ := Option.isSome_iff_exists.1 holder
  obtain ⟨newer, hnewer⟩ := Option.isSome_iff_exists.1 hnewer
  -- some instance lights the first lamp
  have hstep : ((Problem.parse lampText).toOption.any fun p => p.schemas.any fun s =>
      (s.instances (.ofList p.initial) true).any fun t =>
        ((State.ofList p.initial).apply t).toOption ==
          some [⟨"lamp", ["a"]⟩, ⟨"lamp", ["b"]⟩, ⟨"lit", ["a"]⟩]) = true := by
    decide +kernel
  rw [hp] at hstep
  obtain ⟨s, hs, hstep⟩ := List.any_eq_true.1 hstep
  obtain ⟨t, ht, happly⟩ := List.any_eq_true.1 hstep
  have hinst := Problem.isInstance_of_mem_instances (Problem.regular_of_parse hp) hs ht
  have hstate : p.ReachableIn 1 [⟨"lamp", ["a"]⟩, ⟨"lamp", ["b"]⟩, ⟨"lit", ["a"]⟩] := by
    exact .step (.start fun f => State.mem_ofList)
      (Problem.parallelStep_of_apply hinst (eq_ok_of_toOption_eq_some (eq_of_beq happly)))
  exact ⟨p, g, older, newer, _, hp, hg, holder, hnewer, hstate, rfl,
    admits_of_reachableIn hp hg _ holder hnewer hstate⟩

end Graph

end Strips
