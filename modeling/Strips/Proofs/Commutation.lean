import Strips.Proofs.Soundness

/-!
# Steps that commute

A plan through the levels gives, for each level, a set of steps, and they are written down in some
order. The order does not matter: steps of one layer that do not exclude each other and that all
apply in a state can be taken in any order, and what is true in the end is always the same.

It is enough that one step disturbs another to make the two exclude each other. Steps may therefore
share what they add or delete, delete what is not true, or add again what they delete themselves.

## Main results

* `ActionLayer.not_disturbs_of_isMutex_eq_false` – steps that do not exclude each other do not
  disturb each other.
* `ActionLayer.exists_run_of_perm` – they run in every order to the same facts.
-/

namespace Strips

namespace ActionLayer

variable {layer : ActionLayer} {effects : Index Fact Step} {source : Option FactLayer}

/-- A step that disturbs a different one excludes it, whatever else does. -/
theorem isMutex_findMutexes_of_disturbs (heffects : Registers effects layer.steps) {s t : Step}
    (hs : layer.steps.contains s = true) (ht : layer.steps.contains t = true)
    (hst : (s == t) = false) (h : s.Disturbs t) :
    (layer.findMutexes source effects).isMutex s t = true := by
  obtain ⟨u, v, huv, hus, hvt⟩ :=
    exists_mem_foundPairs_of_disturbs heffects hs ht hst h (excludedPairs source)
  have hfound : (layer.mutexes.addAll (foundPairs layer.consumers effects
      (excludedPairs source))).contains u v = true := PairRelation.contains_addAll_of_mem huv
  rw [findMutexes_eq, ← ActionLayer.isMutex_congr _ hus hvt]
  exact hfound

/-- Steps that do not exclude each other do not disturb each other. -/
theorem not_disturbs_of_isMutex_eq_false (heffects : Registers effects layer.steps) {s t : Step}
    (hs : layer.steps.contains s = true) (ht : layer.steps.contains t = true)
    (hst : (s == t) = false) (h : (layer.findMutexes source effects).isMutex s t = false) :
    ¬ s.Disturbs t := by
  intro hd
  rw [isMutex_findMutexes_of_disturbs heffects hs ht hst hd] at h
  cases h

/-- **Steps that do not exclude each other commute.** If they are pairwise different and all of them
apply in a state, then they run from it in every order, to the same facts: those of the state that
none of them deletes, and all that they add. -/
theorem exists_run_of_perm (heffects : Registers effects layer.steps) {steps order : List Step}
    {state : List Fact} (hmem : ∀ s ∈ steps, layer.steps.contains s = true)
    (hfree : steps.Pairwise fun s t => (s == t) = false ∧
      (layer.findMutexes source effects).isMutex s t = false ∧
      (layer.findMutexes source effects).isMutex t s = false)
    (happly : ∀ s ∈ steps, ∀ f ∈ s.preconditions, f ∈ state) (horder : order.Perm steps) :
    ∃ last, State.run state (order.map .step) = .ok last ∧
      ∀ f, f ∈ last ↔ (f ∈ state ∧ ∀ s ∈ steps, f ∉ s.deleted) ∨ ∃ s ∈ steps, f ∈ s.added := by
  have hindependent : steps.Pairwise fun s t => ¬ s.Disturbs t ∧ ¬ t.Disturbs s := by
    refine hfree.imp_of_mem ?_
    intro s t hs ht ⟨hst, hmutex, hmutex'⟩
    have hts : (t == s) = false := by rw [BEq.comm, hst]
    exact ⟨not_disturbs_of_isMutex_eq_false heffects (hmem s hs) (hmem t ht) hst hmutex,
      not_disturbs_of_isMutex_eq_false heffects (hmem t ht) (hmem s hs) hts hmutex'⟩
  -- being independent does not depend on the order, so neither does the run
  have hpairwise : order.Pairwise fun s t => ¬ s.Disturbs t ∧ ¬ t.Disturbs s :=
    horder.symm.pairwise hindependent fun {s t} h => ⟨h.2, h.1⟩
  have happly' : ∀ s ∈ order, ∀ f ∈ s.preconditions, f ∈ State.ofList state := by
    intro s hs f hf
    simpa using happly s (horder.mem_iff.1 hs) f hf
  obtain ⟨last, hrun, hlast⟩ := State.exists_runFrom hpairwise happly' 0
  refine ⟨last, hrun, fun f => ?_⟩
  simp only [hlast, State.mem_ofList, horder.mem_iff]

/-- Lighting two lamps, which both end the dark, and winding a clock, which stops and goes again. -/
def chores : List Step :=
  [{ name := "light", arguments := ["a"], preconditions := [⟨"match", ["a"]⟩]
     deleted := [⟨"dark", []⟩], added := [⟨"lit", ["a"]⟩] },
   { name := "light", arguments := ["b"], preconditions := [⟨"match", ["b"]⟩]
     deleted := [⟨"dark", []⟩], added := [⟨"lit", ["b"]⟩] },
   { name := "wind", preconditions := [⟨"clock", []⟩]
     deleted := [⟨"goes", []⟩], added := [⟨"goes", []⟩] }]

/-- The chores, with a rest that needs the dark. -/
def household : ActionLayer :=
  { steps := chores ++ [{ name := "rest", preconditions := [⟨"dark", []⟩] }] }

/-- What is true before the chores. -/
def morning : List Fact := [⟨"match", ["a"]⟩, ⟨"match", ["b"]⟩, ⟨"clock", []⟩, ⟨"dark", []⟩]

/-- The chores can be done in the opposite order too. -/
theorem exists_run_chores :
    Registers household.effects household.steps ∧
    (∀ s ∈ chores, household.steps.contains s = true) ∧
    (chores.Pairwise fun s t => (s == t) = false ∧
      (household.findMutexes (some (.ofList morning)) household.effects).isMutex s t = false ∧
      (household.findMutexes (some (.ofList morning)) household.effects).isMutex t s = false) ∧
    (∀ s ∈ chores, ∀ f ∈ s.preconditions, f ∈ morning) ∧ chores.reverse.Perm chores ∧
    ∃ last, State.run morning (chores.reverse.map .step) = .ok last ∧
      ∀ f, f ∈ last ↔ (f ∈ morning ∧ ∀ s ∈ chores, f ∉ s.deleted) ∨ ∃ s ∈ chores, f ∈ s.added := by
  have heffects : Registers household.effects household.steps := registers_foldl_fileEffects _ []
  have hmem : ∀ s ∈ chores, household.steps.contains s = true := by decide
  have hfree : chores.Pairwise fun s t => (s == t) = false ∧
      (household.findMutexes (some (.ofList morning)) household.effects).isMutex s t = false ∧
      (household.findMutexes (some (.ofList morning)) household.effects).isMutex t s = false := by
    decide +kernel
  have happly : ∀ s ∈ chores, ∀ f ∈ s.preconditions, f ∈ morning := by decide
  exact ⟨heffects, hmem, hfree, happly, chores.reverse_perm,
    exists_run_of_perm heffects hmem hfree happly chores.reverse_perm⟩

end ActionLayer

end Strips
