import Strips.Plan
import Strips.Proofs.Layers
import Strips.Proofs.NoGoods

/-!
# Parallel steps

In a parallel step any number of instances is taken at once, as long as all of them apply and none
of them disturbs another one. A serial plan is a sequence of parallel steps of one instance each,
and a state may be left as it is by taking none.

A level of a planning graph answers for all parallel steps from states that the level before
supports: the state that is reached is supported, and the instances that were taken, together with
the steps that keep what they leave alone, cover it.

## Main definitions

* `Problem.ParallelStep`, `Problem.ReachableIn` – parallel steps, and what they reach.

## Main results

* `Level.Follows.exists_covers` – a level answers for all parallel steps.
* `Problem.reachableIn_of_run` – a serial plan is a sequence of parallel steps.
-/

namespace Strips

namespace Problem

/-- The given instances are taken at once: all of them apply, none disturbs another one, and all
that they delete goes before all that they add comes. -/
structure ParallelStep (p : Problem) (state : State) (steps : List Step) (next : State) : Prop where
  instances : ∀ t ∈ steps, p.IsInstance t
  applicable : ∀ t ∈ steps, ∀ f ∈ t.preconditions, f ∈ state
  independent : ∀ s ∈ steps, ∀ t ∈ steps, (s == t) = false → ¬ s.Disturbs t
  mem_next : ∀ f, f ∈ next ↔
    (f ∈ state ∧ ∀ t ∈ steps, f ∉ t.deleted) ∨ ∃ t ∈ steps, f ∈ t.added

/-- The states that are reached in a number of parallel steps from the initial one. -/
inductive ReachableIn (p : Problem) : Nat → State → Prop
  | start {state : State} (h : ∀ f, f ∈ state ↔ f ∈ p.initial) : p.ReachableIn 0 state
  | step {count : Nat} {state next : State} {steps : List Step} (h : p.ReachableIn count state)
      (hstep : p.ParallelStep state steps next) : p.ReachableIn (count + 1) next

variable {p : Problem}

/-- Instances that apply and do not disturb each other can be taken at once. -/
theorem exists_parallelStep {state : State} {steps : List Step}
    (hinstances : ∀ t ∈ steps, p.IsInstance t)
    (happly : ∀ t ∈ steps, ∀ f ∈ t.preconditions, f ∈ state)
    (hindependent : ∀ s ∈ steps, ∀ t ∈ steps, (s == t) = false → ¬ s.Disturbs t) :
    ∃ next, p.ParallelStep state steps next := by
  refine ⟨(state.filter fun f => steps.all fun t => !t.deleted.contains f) ++
    steps.flatMap Step.added, hinstances, happly, hindependent, fun f => ?_⟩
  simp

/-- Taking no instance at all leaves a state as it is. -/
theorem ReachableIn.wait {count : Nat} {state : State} (h : p.ReachableIn count state) :
    p.ReachableIn (count + 1) state :=
  h.step ⟨fun t ht => absurd ht List.not_mem_nil, fun t ht => absurd ht List.not_mem_nil,
    fun s hs => absurd hs List.not_mem_nil, fun f => by simp⟩

theorem ReachableIn.mono {count more : Nat} {state : State} (h : p.ReachableIn count state)
    (hle : count ≤ more) : p.ReachableIn more state := by
  induction hle with
  | refl => exact h
  | step _ ih => exact ih.wait

/-! ### Serial plans -/

/-- An instance that applies is a parallel step by itself. -/
theorem parallelStep_of_apply {state next : State} {t : Step} (ht : p.IsInstance t)
    (h : state.apply t = .ok next) : p.ParallelStep state [t] next := by
  obtain ⟨happly, rfl⟩ := State.apply_eq_ok_iff.1 h
  refine ⟨fun s hs => ?_, fun s hs => ?_, fun s hs u hu hne => ?_, fun f => ?_⟩
  · rwa [List.mem_singleton.1 hs]
  · rwa [List.mem_singleton.1 hs]
  · rw [List.mem_singleton.1 hs, List.mem_singleton.1 hu, BEq.rfl] at hne
    cases hne
  · simp

theorem reachableIn_of_runFrom {plan : List Step} (hplan : ∀ t ∈ plan, p.IsInstance t) :
    ∀ {index count : Nat} {state last : State}, p.ReachableIn count state →
      State.runFrom index state (plan.map .step) = .ok last →
      p.ReachableIn (count + plan.length) last := by
  induction plan with
  | nil =>
    intro index count state last hstate h
    rw [List.map_nil, State.runFrom] at h
    obtain rfl := Except.ok.inj h
    exact hstate
  | cons t rest ih =>
    intro index count state last hstate h
    obtain ⟨happly, h⟩ := State.runFrom_step_cons_eq_ok_iff.1 h
    have hstep := parallelStep_of_apply (hplan t List.mem_cons_self)
      (State.apply_eq_ok_iff.2 ⟨happly, rfl⟩)
    have hlast := ih (fun s hs => hplan s (List.mem_cons_of_mem t hs)) (hstate.step hstep) h
    rwa [Nat.add_assoc, Nat.add_comm 1] at hlast

/-- **A serial plan is a sequence of parallel steps.** -/
theorem reachableIn_of_run {plan : List Step} (hplan : ∀ t ∈ plan, p.IsInstance t) {last : State}
    (h : State.run p.initial (plan.map .step) = .ok last) : p.ReachableIn plan.length last := by
  have hstart : p.ReachableIn 0 (State.ofList p.initial) := .start fun f => State.mem_ofList
  simpa using reachableIn_of_runFrom hplan hstart h

/-- What a plan that achieves the goals gives. -/
theorem exists_reachableIn_of_achieves {plan : List Step} (hplan : ∀ t ∈ plan, p.IsInstance t)
    (h : State.achieves p.initial (plan.map .step) p.goals = true) :
    ∃ last, p.ReachableIn plan.length last ∧ ∀ f ∈ p.goals, f ∈ last := by
  obtain ⟨last, hrun, hgoals⟩ := State.achieves_iff.1 h
  exact ⟨last, reachableIn_of_run hplan hrun, hgoals⟩

end Problem

/-! ### What a level answers for -/

namespace FactLayer

/-- A supported state meets the preconditions of its instances in either mode. -/
theorem mem_instances_of_supports {layer : FactLayer} (hl : layer.Sound) {state : State}
    (hs : layer.supports state = true) {s : Schema} (hreg : s.Regular) {σ : Nat → String}
    (hσ : s.Admits σ) (hpre : ∀ f ∈ (s.action.under σ).preconditions, f ∈ state) (strict : Bool) :
    s.action.under σ ∈ s.instances layer strict := by
  obtain ⟨hmem, hfree⟩ := hl.supports_iff.1 hs
  have hstate : ∀ l ∈ s.action.preconditions.members, l.under σ ∈ state :=
    fun l hl => hpre _ (LiteralSet.mem_under.2 ⟨l, hl, rfl⟩)
  refine hreg.mem_instances hσ (fun l hl => hmem _ (hstate l hl)) fun _ => ?_
  refine List.pairwise_of_forall_mem_list fun f hf g hg => ?_
  obtain ⟨l, hlmem, rfl⟩ := List.mem_map.1 hf
  obtain ⟨m, hmmem, rfl⟩ := List.mem_map.1 hg
  exact hfree _ (hstate m hmmem) _ (hstate l hlmem)

end FactLayer

namespace ActionLayer.Over

variable {p : Problem} {actions : ActionLayer} {strict : Bool} {source : FactLayer}
  (h : actions.Over p.schemas strict source) (hsource : source.Sound) {state : State}
  (hs : source.supports state = true)

include h hsource hs

/-- An instance that applies in a state that is supported is in the layer. -/
theorem contains_of_isInstance (hreg : ∀ s ∈ p.schemas, s.Regular) {t : Step}
    (ht : p.IsInstance t) (hpre : ∀ f ∈ t.preconditions, f ∈ state) :
    actions.steps.contains t = true := by
  obtain ⟨s, hmem, σ, hσ, rfl⟩ := ht
  exact h.instances s hmem _
    (FactLayer.mem_instances_of_supports hsource hs (hreg s hmem) hσ hpre strict)

/-- Steps that apply in a state that is supported are compatible if neither disturbs the other. -/
theorem isMutex_eq_false_of_not_disturbs {s t : Step} (hpre : ∀ f ∈ s.preconditions, f ∈ state)
    (hpre' : ∀ f ∈ t.preconditions, f ∈ state)
    (hst : (s == t) = false → ¬ s.Disturbs t ∧ ¬ t.Disturbs s) : actions.isMutex s t = false := by
  refine Bool.eq_false_iff.2 fun hmutex => ?_
  obtain ⟨-, -, hne, hconflict⟩ := (h.isMutex_iff s t).1 hmutex
  rcases hconflict with hd | hd | ⟨-, f, hf, g, hg, hfg⟩
  · exact (hst hne).1 hd
  · exact (hst hne).2 hd
  · rw [(hsource.supports_iff.1 hs).2 f (hpre f hf) g (hpre' g hg)] at hfg
    cases hfg

section ParallelStep

variable {next : State} {steps : List Step} (hstep : p.ParallelStep state steps next)

include hstep

/-- The steps of a parallel step are compatible. -/
theorem isMutex_eq_false_of_parallelStep {s t : Step} (hs' : s ∈ steps) (ht : t ∈ steps) :
    actions.isMutex s t = false :=
  h.isMutex_eq_false_of_not_disturbs hsource hs (hstep.applicable s hs') (hstep.applicable t ht)
    fun hst => ⟨hstep.independent s hs' t ht hst,
      hstep.independent t ht s hs' (by rw [BEq.comm, hst])⟩

/-- A step is compatible with the step that keeps a fact which it does not delete. -/
theorem isMutex_keep_eq_false {t k : Step} {f : Fact} (ht : t ∈ steps) (hf : f ∈ state)
    (hkept : f ∉ t.deleted) (hkeep : Step.keep f = .ok k) : actions.isMutex t k = false := by
  refine h.isMutex_eq_false_of_not_disturbs hsource hs (hstep.applicable t ht) (fun g hg => ?_)
    fun _ => ⟨fun hd => hkept (Step.mem_deleted_of_disturbs_keep hkeep hd),
      Step.not_disturbs_of_keep hkeep⟩
  obtain ⟨-, -, -, hpre, -⟩ := Step.keep_eq_ok hkeep
  exact hpre g hg ▸ hf

end ParallelStep

omit hsource hs in
/-- Steps that keep facts are compatible if these facts are. -/
theorem isMutex_keep_keep_eq_false {f g : Fact} {k l : Step} (hfg : source.isMutex f g = false)
    (hk : Step.keep f = .ok k) (hl : Step.keep g = .ok l) : actions.isMutex k l = false := by
  refine Bool.eq_false_iff.2 fun hmutex => ?_
  obtain ⟨-, -, -, hconflict⟩ := (h.isMutex_iff k l).1 hmutex
  rcases hconflict with hd | hd | ⟨-, f', hf', g', hg', hfg'⟩
  · exact Step.not_disturbs_of_keep hk hd
  · exact Step.not_disturbs_of_keep hl hd
  · obtain ⟨-, -, -, hpre, -⟩ := Step.keep_eq_ok hk
    obtain ⟨-, -, -, hpre', -⟩ := Step.keep_eq_ok hl
    rw [hpre f' hf', hpre' g' hg', hfg] at hfg'
    cases hfg'

/-- The steps of a parallel step, with those that keep what it leaves alone, are compatible, and
they add all that is reached. -/
theorem exists_compatible (hreg : ∀ s ∈ p.schemas, s.Regular) {next : State} {steps : List Step}
    (hstep : p.ParallelStep state steps next) :
    ∃ chosen : List Step, (∀ s ∈ chosen, actions.steps.contains s = true) ∧
      (∀ s ∈ chosen, ∀ t ∈ chosen, actions.isMutex s t = false) ∧
      (∀ s ∈ chosen, ∀ f ∈ s.preconditions, f ∈ state) ∧
      ∀ f ∈ next, ∃ s ∈ chosen, f ∈ s.added := by
  -- the steps that keep what no step of the parallel step deletes
  obtain ⟨keeping, hkeeping⟩ : ∃ keeping : List Step, ∀ k, k ∈ keeping ↔
      k ∈ actions.steps ∧ ∃ f ∈ state, (∀ t ∈ steps, f ∉ t.deleted) ∧ Step.keep f = .ok k := by
    classical
    exact ⟨actions.steps.filter fun k =>
      ∃ f ∈ state, (∀ t ∈ steps, f ∉ t.deleted) ∧ Step.keep f = .ok k, fun k => by simp⟩
  refine ⟨steps ++ keeping, fun s hs' => ?_, fun s hs' t ht => ?_, fun s hs' f hf => ?_,
    fun f hf => ?_⟩
  · rcases List.mem_append.1 hs' with hs' | hs'
    · exact h.contains_of_isInstance hsource hs hreg (hstep.instances s hs')
        (hstep.applicable s hs')
    · exact List.elem_eq_true_of_mem ((hkeeping s).1 hs').1
  · rcases List.mem_append.1 hs' with hs' | hs' <;> rcases List.mem_append.1 ht with ht | ht
    · exact h.isMutex_eq_false_of_parallelStep hsource hs hstep hs' ht
    · obtain ⟨-, f, hf, hkept, hkeep⟩ := (hkeeping t).1 ht
      exact h.isMutex_keep_eq_false hsource hs hstep hs' hf (hkept s hs') hkeep
    · obtain ⟨-, f, hf, hkept, hkeep⟩ := (hkeeping s).1 hs'
      rw [h.isMutex_comm hsource]
      exact h.isMutex_keep_eq_false hsource hs hstep ht hf (hkept t ht) hkeep
    · obtain ⟨-, f, hf, -, hkeep⟩ := (hkeeping s).1 hs'
      obtain ⟨-, g, hg, -, hkeep'⟩ := (hkeeping t).1 ht
      exact h.isMutex_keep_keep_eq_false ((hsource.supports_iff.1 hs).2 f hf g hg) hkeep hkeep'
  · rcases List.mem_append.1 hs' with hs' | hs'
    · exact hstep.applicable s hs' f hf
    · obtain ⟨-, g, hg, -, hkeep⟩ := (hkeeping s).1 hs'
      obtain ⟨-, -, -, hpre, -⟩ := Step.keep_eq_ok hkeep
      exact hpre f hf ▸ hg
  · rcases (hstep.mem_next f).1 hf with ⟨hf, hkept⟩ | ⟨t, ht, hft⟩
    · obtain ⟨k, hk, hkeep⟩ := h.keeps f ((hsource.supports_iff.1 hs).1 f hf)
      obtain ⟨-, -, hadd, -⟩ := Step.keep_eq_ok hkeep
      exact ⟨k, List.mem_append_right _ ((hkeeping k).2 ⟨hk, f, hf, hkept, hkeep⟩),
        hadd ▸ List.mem_cons_self⟩
    · exact ⟨t, List.mem_append_left _ ht, hft⟩

end ActionLayer.Over

namespace Level

/-- **A level answers for all parallel steps** from states that the level before supports: it
supports what they reach, and has a cover of it that needs no more than was there. -/
theorem Follows.exists_covers {p : Problem} (hreg : ∀ s ∈ p.schemas, s.Regular) {strict : Bool}
    {newer older : Level} (h : newer.Follows p.schemas strict older) (hs : older.facts.Sound)
    {state next : State} {steps : List Step} (hsupports : older.facts.supports state = true)
    (hstep : p.ParallelStep state steps next) :
    newer.facts.supports next = true ∧ ∃ chosen, newer.stage.Covers chosen next ∧
      ∀ f ∈ preconditionsOf Step.preconditions chosen, f ∈ state := by
  obtain ⟨actions, hactions, hover, hafter⟩ := h
  obtain ⟨chosen, hmem, hfree, hpre, hadd⟩ := hover.exists_compatible hs hsupports hreg hstep
  have hmutex : ∀ s t, newer.stage.isMutex s t = actions.isMutex s t := by
    intro s t
    simp only [stage, isMutex, hactions]
  have hlayer : ∀ f ∈ next, f ∈ newer.facts.facts := by
    intro f hf
    obtain ⟨s, hs', hfs⟩ := hadd f hf
    obtain ⟨u, hu, hsu⟩ := List.contains_iff_exists_mem_beq.1 (hmem s hs')
    exact (hafter.mem_facts f).2 ⟨u, hu, (Step.mem_added_of_beq hsu).1 hfs⟩
  refine ⟨hafter.sound.supports_iff.2 ⟨hlayer, fun f hf g hg => ?_⟩, chosen,
    ⟨fun s hs' t ht => (hmutex s t).trans (hfree s hs' t ht), fun f hf => ?_⟩, fun f hf => ?_⟩
  · obtain ⟨s, hs', hfs⟩ := hadd f hf
    obtain ⟨t, ht, hgt⟩ := hadd g hg
    obtain ⟨u, hu, hsu⟩ := List.contains_iff_exists_mem_beq.1 (hmem s hs')
    obtain ⟨v, hv, htv⟩ := List.contains_iff_exists_mem_beq.1 (hmem t ht)
    refine Bool.eq_false_iff.2 fun hfg => ?_
    have huv := ((hafter.isMutex_iff f g).1 hfg).2.2 u hu ((Step.mem_added_of_beq hsu).1 hfs) v hv
      ((Step.mem_added_of_beq htv).1 hgt)
    rw [← actions.isMutex_congr hsu htv, hfree s hs' t ht] at huv
    cases huv
  · obtain ⟨s, hs', hfs⟩ := hadd f hf
    exact ⟨s, hs', (hafter.contains_support f s).2 ⟨hmem s hs', hfs⟩⟩
  · obtain ⟨s, hs', hfs⟩ := mem_preconditionsOf.1 hf
    exact hpre s hs' f hfs

end Level

end Strips
