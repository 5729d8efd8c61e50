import Strips.Proofs.StrictLevels

/-!
# The derived fact layer

The fact layer that follows some steps can be told from the steps and from the pairs of them that
were made to exclude each other, whatever these pairs are. Its facts are what the steps add, in
order, so the order of the steps does not show in them. The index that comes with it has these facts
as keys and under each of them the different steps that add it, in the order of the steps. Two facts
exclude each other if all pairs of their supporters do. A step does not exclude itself, and so a
fact, which some step adds, does not either.

## Main definitions

* `ActionLayer.related` – steps, with pairs of them that were made to exclude each other.
* `FactLayer.Exact` – what the facts, their supporters and their exclusions have to be.

## Main results

* `ActionLayer.isMutex_related` – which steps exclude each other after some pairs were added.
* `ActionLayer.exact_buildFacts` – the fact layer that is built is exact.
-/

namespace Strips

/-- What the fact layer after some steps has to be, and the index of the steps that support its
facts. -/
structure FactLayer.Exact (layer : FactLayer) (support : Index Fact Step) (actions : ActionLayer) :
    Prop where
  mem_facts : ∀ f, f ∈ layer.facts ↔ ∃ s ∈ actions.steps, f ∈ s.added
  increasing : layer.facts.Pairwise fun f g => f.le g = true ∧ f ≠ g
  keys : support.keys.Perm layer.facts
  supporters : ∀ f,
    support.lookup f = (actions.steps.filter fun s => s.added.contains f).eraseDups
  mem_of_isMutex : ∀ f g, layer.isMutex f g = true → f ∈ layer.facts ∧ g ∈ layer.facts
  isMutex_iff : ∀ f ∈ layer.facts, ∀ g ∈ layer.facts, f ≠ g → (layer.isMutex f g = true ↔
    ∀ s ∈ support.lookup f, ∀ t ∈ support.lookup g, actions.isMutex s t = true)
  isMutex_self : ∀ f, layer.isMutex f f = false

namespace ActionLayer

/-- The layer of some steps after each of the pairs was made to exclude each other. -/
def related (steps : List Step) (pairs : List (Step × Step)) : ActionLayer :=
  pairs.foldl (fun layer p => layer.addMutex p.1 p.2) { steps }

/-- Pairs of a step with itself are passed over. -/
theorem related_eq (steps : List Step) (pairs : List (Step × Step)) :
    related steps pairs = withPairs { steps } (pairs.filter fun p => !(p.1 == p.2)) := by
  have key : ∀ layer : ActionLayer, pairs.foldl (fun layer p => layer.addMutex p.1 p.2) layer =
      layer.withPairs (pairs.filter fun p => !(p.1 == p.2)) := by
    induction pairs with
    | nil => exact fun _ => rfl
    | cons p pairs ih =>
      intro layer
      rw [List.foldl_cons, ih, addMutex, List.filter_cons]
      cases p.1 == p.2 <;> rfl
  exact key _

@[simp] theorem steps_related (steps : List Step) (pairs : List (Step × Step)) :
    (related steps pairs).steps = steps := by
  rw [related_eq]
  rfl

/-- Two steps exclude each other if they were added as a pair of different steps. -/
theorem isMutex_related {steps : List Step} {pairs : List (Step × Step)} {s t : Step} :
    (related steps pairs).isMutex s t = true ↔
      ∃ p ∈ pairs, (p.1 == p.2) = false ∧ PairRelation.Joins p s t := by
  rw [related_eq, isMutex, withPairs, PairRelation.contains_addAll PairRelation.isSymm_empty]
  refine (or_iff_right Bool.false_ne_true).trans (exists_congr fun p => ?_)
  rw [List.mem_filter, Bool.not_eq_true', and_assoc]

theorem isMutex_related_comm (steps : List Step) (pairs : List (Step × Step)) (s t : Step) :
    (related steps pairs).isMutex s t = (related steps pairs).isMutex t s := by
  rw [Bool.eq_iff_iff, isMutex_related, isMutex_related]
  refine exists_congr fun p => and_congr_right' (and_congr_right' ?_)
  rw [PairRelation.Joins, PairRelation.Joins, or_comm, and_comm, and_comm (a := (p.1 == s) = true)]

theorem isMutex_related_self (steps : List Step) (pairs : List (Step × Step)) (s : Step) :
    (related steps pairs).isMutex s s = false := by
  refine Bool.eq_false_iff.2 fun h => ?_
  obtain ⟨p, -, hne, hjoins⟩ := isMutex_related.1 h
  have heq : (p.1 == p.2) = true := by
    rcases hjoins with ⟨h1, h2⟩ | ⟨h2, h1⟩
    · exact BEq.trans h1 (BEq.symm h2)
    · exact BEq.trans h1 (BEq.symm h2)
  rw [hne] at heq
  cases heq

/-! ### The layer that is built -/

section Built

variable (actions : ActionLayer)

theorem mem_facts_buildFacts {f : Fact} :
    f ∈ (actions.buildFacts []).1.facts ↔ ∃ s ∈ actions.steps, f ∈ s.added := by
  rw [facts_buildFacts, Fact.mem_sort, buildFacts, fileSupport_eq, Index.mem_keys_fileAll]
  exact or_iff_right List.not_mem_nil

theorem increasing_buildFacts :
    (actions.buildFacts []).1.facts.Pairwise fun f g => f.le g = true ∧ f ≠ g := by
  rw [facts_buildFacts]
  exact (Fact.sort_pairwise _).and
    ((Fact.sort_perm _).nodup_iff.2 (Index.nodup_keys_fileAll_empty _ _))

/-- Steps that add the same facts, in whatever order, are followed by the same facts. -/
theorem facts_buildFacts_congr {others : ActionLayer}
    (h : ∀ f, (∃ s ∈ actions.steps, f ∈ s.added) ↔ ∃ s ∈ others.steps, f ∈ s.added) :
    (actions.buildFacts []).1.facts = (others.buildFacts []).1.facts := by
  have hi := actions.increasing_buildFacts
  have hi' := others.increasing_buildFacts
  refine List.Perm.eq_of_pairwise (fun f g _ _ => Fact.le_antisymm) (hi.imp And.left)
    (hi'.imp And.left) ?_
  refine (List.perm_ext_iff_of_nodup (hi.imp And.right) (hi'.imp And.right)).2 fun f => ?_
  rw [mem_facts_buildFacts, mem_facts_buildFacts, h]

theorem lookup_buildFacts (f : Fact) : (actions.buildFacts []).2.lookup f =
    (actions.steps.filter fun s => s.added.contains f).eraseDups := by
  rw [buildFacts, fileSupport_eq, Index.lookup_fileAll, Index.lookup_nil, foldl_choose_eq_eraseDups]

end Built

/-- **The fact layer that is built is exact**, whatever pairs of steps exclude each other, and the
order of the steps does not matter to its facts. -/
theorem exact_buildFacts (steps : List Step) (pairs : List (Step × Step)) :
    let built := (related steps pairs).buildFacts []
    built.1.Exact built.2 (related steps pairs) ∧
      ∀ others pairs', others.Perm steps →
        ((related others pairs').buildFacts []).1.facts = built.1.facts := by
  have hcomm := isMutex_related_comm steps pairs
  have hafter := after_buildFacts hcomm (isMutex_related_self steps pairs)
  have hkeys : ∀ f, f ∈ ((related steps pairs).buildFacts []).1.facts ↔
      f ∈ ((related steps pairs).buildFacts []).2.keys := fun f => by
    rw [facts_buildFacts, Fact.mem_sort]
  refine ⟨?_, fun others pairs' hperm => ?_⟩
  · exact
      { mem_facts := fun f => mem_facts_buildFacts _
        increasing := increasing_buildFacts _
        keys := (facts_buildFacts _).symm ▸ (Fact.sort_perm _).symm
        supporters := lookup_buildFacts _
        mem_of_isMutex := hafter.sound.mem_of_isMutex
        isMutex_iff := fun f hf g hg _ => by
          rw [← compatible_eq_false_iff]
          refine (isMutex_factsOf hcomm).trans (and_iff_right ⟨(hkeys f).1 hf, (hkeys g).1 hg⟩)
        isMutex_self := hafter.sound.isMutex_self }
  · refine facts_buildFacts_congr _ fun f => ?_
    rw [steps_related, steps_related]
    exact exists_congr fun s => and_congr_left' hperm.mem_iff

/-- Steps of a bell and of two ways to be calm. -/
def shifts : List Step :=
  [{ name := "ring", added := [⟨"loud", []⟩] }, { name := "rest", added := [⟨"calm", []⟩] },
   { name := "hum", added := [⟨"calm", []⟩] }]

/-- Turned around, the shifts are followed by the same facts. Ringing excludes rest, but not
humming, and so it can be loud and calm. -/
theorem exact_buildFacts_shifts :
    let built := (related shifts (shifts.zip shifts.tail)).buildFacts []
    shifts.reverse.Perm shifts ∧ built.1.Exact built.2 (related shifts (shifts.zip shifts.tail)) ∧
      ((related shifts.reverse []).buildFacts []).1.facts = built.1.facts ∧
      built.1.facts = [⟨"calm", []⟩, ⟨"loud", []⟩] ∧
      built.1.isMutex ⟨"calm", []⟩ ⟨"loud", []⟩ = false := by
  obtain ⟨hexact, hfacts⟩ := exact_buildFacts shifts (shifts.zip shifts.tail)
  exact ⟨shifts.reverse_perm, hexact, hfacts shifts.reverse [] shifts.reverse_perm,
    by decide +kernel, by decide +kernel⟩

end ActionLayer

end Strips
