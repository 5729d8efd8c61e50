import Strips.Proofs.Exploration

/-!
# Plans are right

The plan that a search returns is a sequence of covers with their no-ops left out. The steps of a
cover do not disturb each other, so they may be taken one after the other in any order and the
result is the same as if they were taken at once. A no-op of a cover keeps a fact that the level
below was asked for, and no other step of the cover deletes that fact. It is therefore there in the
end, also when the no-op is left out.

The last point fails for a fact named `distinct`, since the step that keeps it does not need it.
Problems in which the name stands for constraints only have no such fact.

## Main results

* `State.exists_runFrom` – steps that do not disturb each other can be taken in sequence.
* `Ladder.exists_run` – a plan through the levels runs without its no-ops.
* `Ladder.exists_reachableIn` – as parallel steps, it takes one for each level.
* `Graph.achieves_of_solved` – the plan of an attempt is right.
-/

namespace Strips

/-! ### Steps in sequence -/

namespace State

theorem runFrom_append {before later : List PlanEntry} : ∀ {index : Nat} {state middle : State},
    runFrom index state before = .ok middle →
      runFrom index state (before ++ later) = runFrom (index + before.length) middle later := by
  induction before with
  | nil =>
    intro index state middle h
    obtain rfl := Except.ok.inj h
    rfl
  | cons e rest ih =>
    intro index state middle h
    rw [runFrom] at h
    rw [List.cons_append, runFrom, List.length_cons, Nat.add_comm rest.length, ← Nat.add_assoc]
    split at h
    · exact ih h
    · cases h

/-- **Steps that do not disturb each other can be taken in sequence** if all of them apply at the
start. What is true in the end is the same as if they were taken at once. -/
theorem exists_runFrom {steps : List Step}
    (h : steps.Pairwise fun s t => ¬ s.Disturbs t ∧ ¬ t.Disturbs s) :
    ∀ {state : State}, (∀ t ∈ steps, ∀ f ∈ t.preconditions, f ∈ state) → ∀ index,
      ∃ last, runFrom index state (steps.map .step) = .ok last ∧
        ∀ f, f ∈ last ↔ (f ∈ state ∧ ∀ t ∈ steps, f ∉ t.deleted) ∨ ∃ t ∈ steps, f ∈ t.added := by
  induction steps with
  | nil => exact fun {state} _ index => ⟨state, rfl, fun f => by simp⟩
  | cons t rest ih =>
    intro state hpre index
    obtain ⟨ht, hrest⟩ := List.pairwise_cons.1 h
    obtain ⟨hpre, hpre'⟩ := List.forall_mem_cons.1 hpre
    have hafter : ∀ u ∈ rest, ∀ f ∈ u.preconditions, f ∈ state.after t := fun u hu f hf =>
      mem_after.2 (.inl ⟨hpre' u hu f hf, fun hdel => (ht u hu).1 ⟨f, hdel, .inr hf⟩⟩)
    obtain ⟨last, hrun, hlast⟩ := ih hrest hafter (index + 1)
    refine ⟨last, ?_, fun f => ?_⟩
    · rw [List.map_cons, runFrom, applyEntry, apply_eq_ok_iff.2 ⟨hpre, rfl⟩]
      exact hrun
    · -- what the first step adds is not deleted by a later one
      have hkept : f ∈ t.added → ∀ u ∈ rest, f ∉ u.deleted := fun hadd u hu hdel =>
        (ht u hu).2 ⟨f, hdel, .inl hadd⟩
      rw [hlast, mem_after, List.forall_mem_cons, List.exists_mem_cons_iff]
      tauto

end State

/-! ### Plans through the levels -/

/-- A step of a level keeps a fact of the level before or is an instance. -/
theorem ActionLayer.Over.keep_or_isInstance {p : Problem} (hreg : ∀ s ∈ p.schemas, s.Regular)
    {actions : ActionLayer} {strict : Bool} {source : FactLayer}
    (h : actions.Over p.schemas strict source) {t : Step} (ht : t ∈ actions.steps) :
    (t.noop = true ∧ ∃ f ∈ source.facts, Step.keep f = .ok t) ∨
      (t.noop = false ∧ p.IsInstance t) := by
  rcases h.origin t ht with ⟨f, hf, hkeep⟩ | ⟨s, hs, hinst⟩
  · exact .inl ⟨(Step.keep_eq_ok hkeep).1, f, hf, hkeep⟩
  · obtain ⟨σ, hσ, rfl, -⟩ := (hreg s hs).exists_under hinst
    exact .inr ⟨(hreg s hs).noop, s, hs, σ, hσ, rfl⟩

@[simp] theorem mem_withoutNoops {steps : List Step} {t : Step} :
    t ∈ withoutNoops steps ↔ t ∈ steps ∧ t.noop = false := by
  rw [withoutNoops, List.mem_filter, Bool.not_eq_true']

namespace Level

section Cover

variable {newer : Level} {actions : ActionLayer} (hafter : newer.facts.After newer.support actions)
  {facts : List Fact} {chosen : List Step}
  (hchosen : chosen ∈ covers newer.stage.isMutex newer.stage.support [] facts)

include hafter hchosen

theorem mem_steps_of_mem_covers : ∀ t ∈ chosen, t ∈ actions.steps := by
  intro t ht
  obtain ⟨f, hf⟩ := Stage.exists_support_of_mem hchosen t ht
  exact (hafter.mem_support f t hf).1

/-- Steps of a cover do not disturb each other. -/
theorem not_disturbs_of_mem_covers {schemas : List Schema} {strict : Bool} {source : FactLayer}
    (hl : newer.stage.Lawful) (hactions : newer.actions = some actions)
    (hover : actions.Over schemas strict source) :
    ∀ s ∈ chosen, ∀ t ∈ chosen, (s == t) = false → ¬ s.Disturbs t := by
  intro s hs t ht hst hdisturbs
  have hmem := mem_steps_of_mem_covers hafter hchosen
  have hmutex : actions.isMutex s t = false := by
    have hfree := (Stage.covers_of_mem hl hchosen).compatible s hs t ht
    simpa only [stage, isMutex, hactions] using hfree
  rw [(hover.isMutex_iff_of_mem (hmem s hs) (hmem t ht)).2 ⟨hst, .inl hdisturbs⟩] at hmutex
  cases hmutex

end Cover

section Follows

variable {p : Problem} (hreg : ∀ s ∈ p.schemas, s.Regular) {strict : Bool} {newer older : Level}
  (h : newer.Follows p.schemas strict older) (hs : older.facts.Sound) {facts : List Fact}
  {chosen : List Step}
  (hchosen : chosen ∈ covers newer.stage.isMutex newer.stage.support [] facts)

include hreg h hs hchosen

/-- Without its no-ops a cover consists of instances that do not disturb each other. -/
theorem Follows.isInstance_of_mem_withoutNoops :
    (∀ t ∈ withoutNoops chosen, p.IsInstance t) ∧
      ∀ s ∈ withoutNoops chosen, ∀ t ∈ withoutNoops chosen, (s == t) = false → ¬ s.Disturbs t := by
  have hlawful := h.lawful hs
  obtain ⟨actions, hactions, hover, hafter⟩ := h
  refine ⟨fun t ht => ?_, fun s hs' t ht => ?_⟩
  · obtain ⟨ht, hnoop⟩ := mem_withoutNoops.1 ht
    rcases hover.keep_or_isInstance hreg (mem_steps_of_mem_covers hafter hchosen t ht) with
      ⟨hnoop', -⟩ | ⟨-, hinst⟩
    · rw [hnoop] at hnoop'
      cases hnoop'
    · exact hinst
  · exact not_disturbs_of_mem_covers hafter hchosen hlawful hactions hover s
      (mem_withoutNoops.1 hs').1 t (mem_withoutNoops.1 ht).1

/-- Taken at once from a state in which all that the cover needs is true, these instances reach the
facts that are covered. -/
theorem Follows.mem_of_parallelStep (hd : ∀ f ∈ older.facts.facts, f.name ≠ distinctName)
    {state next : State} (hstate : ∀ f ∈ preconditionsOf Step.preconditions chosen, f ∈ state)
    (hstep : p.ParallelStep state (withoutNoops chosen) next) : ∀ f ∈ facts, f ∈ next := by
  have hlawful := h.lawful hs
  obtain ⟨actions, hactions, hover, hafter⟩ := h
  have hmem := mem_steps_of_mem_covers hafter hchosen
  have hundisturbed := not_disturbs_of_mem_covers hafter hchosen hlawful hactions hover
  intro f hf
  obtain ⟨s, hs', hsupport⟩ := (Stage.covers_of_mem hlawful hchosen).supported f hf
  have hadd := ((hafter.contains_support f s).1 hsupport).2
  rcases hover.keep_or_isInstance hreg (hmem s hs') with ⟨hnoop, g, hg, hkeep⟩ | ⟨hnoop, -⟩
  · -- the kept fact was needed, so it is in the state, and nothing that is taken deletes it
    obtain ⟨-, -, hadd', -, hpre⟩ := Step.keep_eq_ok hkeep
    obtain rfl : f = g := List.mem_singleton.1 (hadd' ▸ hadd)
    have hneeded : f ∈ s.preconditions := hpre (hd f hg) ▸ List.mem_cons_self
    refine (hstep.mem_next f).2 (.inl ⟨hstate f (mem_preconditionsOf.2 ⟨s, hs', hneeded⟩), ?_⟩)
    intro t ht hdel
    obtain ⟨ht, hnoop'⟩ := mem_withoutNoops.1 ht
    have hne : (t == s) = false := Bool.eq_false_iff.2 fun heq => by
      rw [← (Step.beq_iff.1 heq).1, hnoop'] at hnoop
      cases hnoop
    exact hundisturbed t ht s hs' hne ⟨f, hdel, .inl hadd⟩
  · exact (hstep.mem_next f).2 (.inr ⟨s, mem_withoutNoops.2 ⟨hs', hnoop⟩, hadd⟩)

/-- What a cover needs is needed by its instances. -/
theorem Follows.exists_parallelStep (hd : ∀ f ∈ older.facts.facts, f.name ≠ distinctName)
    {state : State} (hstate : ∀ f ∈ preconditionsOf Step.preconditions chosen, f ∈ state) :
    ∃ next, p.ParallelStep state (withoutNoops chosen) next ∧ ∀ f ∈ facts, f ∈ next := by
  obtain ⟨hinst, hindependent⟩ := h.isInstance_of_mem_withoutNoops hreg hs hchosen
  obtain ⟨next, hstep⟩ := Problem.exists_parallelStep hinst (fun t ht f hf =>
    hstate f (mem_preconditionsOf.2 ⟨t, (mem_withoutNoops.1 ht).1, hf⟩)) hindependent
  exact ⟨next, hstep, h.mem_of_parallelStep hreg hs hchosen hd hstate hstep⟩

/-- A cover runs without its no-ops from every state in which all that it needs is true. -/
theorem Follows.exists_runFrom (hd : ∀ f ∈ older.facts.facts, f.name ≠ distinctName)
    {state : State} (hstate : ∀ f ∈ preconditionsOf Step.preconditions chosen, f ∈ state)
    (index : Nat) :
    (∀ t ∈ withoutNoops chosen, t.noop = false ∧ p.IsInstance t) ∧
      ∃ last, State.runFrom index state ((withoutNoops chosen).map .step) = .ok last ∧
        ∀ f ∈ facts, f ∈ last := by
  obtain ⟨hinst, hindependent⟩ := h.isInstance_of_mem_withoutNoops hreg hs hchosen
  have happly : ∀ t ∈ withoutNoops chosen, ∀ f ∈ t.preconditions, f ∈ state := fun t ht f hf =>
    hstate f (mem_preconditionsOf.2 ⟨t, (mem_withoutNoops.1 ht).1, hf⟩)
  have hpairwise : (withoutNoops chosen).Pairwise fun s t => ¬ s.Disturbs t ∧ ¬ t.Disturbs s :=
    ((Stage.pairwise_of_mem hchosen).filter _).imp_of_mem fun {s t} hs' ht hst =>
      ⟨hindependent s hs' t ht hst, hindependent t ht s hs' (by rw [BEq.comm, hst])⟩
  -- one after the other they reach what they reach at once
  obtain ⟨last, hrun, hlast⟩ := State.exists_runFrom hpairwise happly index
  exact ⟨fun t ht => ⟨(mem_withoutNoops.1 ht).2, hinst t ht⟩, last, hrun,
    h.mem_of_parallelStep hreg hs hchosen hd hstate ⟨hinst, happly, hindependent, hlast⟩⟩

end Follows

end Level

namespace Ladder

variable {p : Problem} (hreg : ∀ s ∈ p.schemas, s.Regular) (hd : p.ReservesDistinct) {strict : Bool}
  {levels : List Level}

include hreg hd

/-- **A plan through the levels runs without its no-ops**, from the initial facts to the facts that
it was asked for. -/
theorem exists_run (h : Ladder p strict levels) : ∀ {facts : List Fact} {plan : List Step},
    Solves Step.preconditions (stagesOf levels) facts plan →
      (∀ t ∈ withoutNoops plan, t.noop = false ∧ p.IsInstance t) ∧
        ∃ last, State.run p.initial ((withoutNoops plan).map .step) = .ok last ∧
          ∀ f ∈ facts, f ∈ last := by
  induction h with
  | start hsound hmem =>
    rintro facts plan ⟨hsupports, rfl⟩
    refine ⟨fun t ht => absurd ht List.not_mem_nil, _, rfl, fun f hf => ?_⟩
    exact State.mem_ofList.2 ((hmem f).1 ((hsound.supports_iff.1 hsupports).1 f hf))
  | step hfollows hrest ih =>
    rintro facts plan ⟨chosen, hchosen, before, hsolves, rfl⟩
    obtain ⟨hbefore, middle, hrun, hmiddle⟩ := ih hsolves
    obtain ⟨hsteps, last, hrun', hlast⟩ := hfollows.exists_runFrom hreg
      (hrest.sound _ List.mem_cons_self) hchosen
      (hrest.name_ne_distinct hreg hd _ List.mem_cons_self) hmiddle
      (0 + ((withoutNoops before).map PlanEntry.step).length)
    have happend : withoutNoops (before ++ chosen) = withoutNoops before ++ withoutNoops chosen :=
      List.filter_append ..
    rw [happend]
    refine ⟨fun t ht => (List.mem_append.1 ht).elim (hbefore t) (hsteps t), last, ?_, hlast⟩
    rw [List.map_append, State.run, State.runFrom_append hrun]
    exact hrun'

/-- **What a plan through the levels is for is reached** in as many parallel steps as there are
levels above the initial one. -/
theorem exists_reachableIn {top : Level} {rest : List Level} (h : Ladder p strict (top :: rest))
    {facts : List Fact} {plan : List Step}
    (hsolves : Solves Step.preconditions (stagesOf (top :: rest)) facts plan) :
    ∃ state, p.ReachableIn rest.length state ∧ ∀ f ∈ facts, f ∈ state := by
  generalize hlevels : top :: rest = levels at h
  induction h generalizing top rest facts plan with
  | start hsound hmem =>
    obtain ⟨rfl, rfl⟩ := List.cons.inj hlevels
    obtain ⟨hsupports, -⟩ := hsolves
    exact ⟨p.initial, .start fun f => .rfl, fun f hf =>
      (hmem f).1 ((hsound.supports_iff.1 hsupports).1 f hf)⟩
  | step hfollows hrest ih =>
    obtain ⟨rfl, rfl⟩ := List.cons.inj hlevels
    obtain ⟨chosen, hchosen, before, hbefore, rfl⟩ := hsolves
    obtain ⟨state, hstate, hneeds⟩ := ih hbefore rfl
    obtain ⟨next, hstep, hnext⟩ := hfollows.exists_parallelStep hreg
      (hrest.sound _ List.mem_cons_self) hchosen
      (hrest.name_ne_distinct hreg hd _ List.mem_cons_self) hneeds
    exact ⟨next, hstate.step hstep, hnext⟩

end Ladder

namespace Graph

/-- **The plan of an attempt is right**: it holds no no-op and nothing but instances, and it runs
from the initial facts to a state in which all goals are true. -/
theorem achieves_of_solved {text : String} {p : Problem} (hp : Problem.parse text = .ok p)
    (hd : p.ReservesDistinct) {strict : Bool} {budget : Int} {g : Graph}
    (hg : p.graph strict budget = .ok g) {r : PlanResult} (hsolve : g.solve.1 = .done r)
    (hstatus : r.status = .solved) :
    ∃ plan, r.plan = some plan ∧ (∀ t ∈ plan, t.noop = false ∧ p.IsInstance t) ∧
      State.achieves p.initial (plan.map .step) p.goals = true := by
  have hreg := Problem.regular_of_parse hp
  obtain ⟨before, after, hbefore, hends⟩ := Problem.exists_of_solve hreg hg hsolve
  cases hends with
  | exhausted => cases hstatus
  | closed => cases hstatus
  | settled => cases hstatus
  | @found g' _ plan hexpand hreach hextract =>
    have hexplored := (hbefore.expand hexpand).1
    have hsolves := search_solves (hexplored.extract hreach hextract).1.symm
    obtain ⟨hsteps, last, hrun, hlast⟩ := hexplored.ladder.exists_run hreg hd hsolves
    refine ⟨withoutNoops plan, rfl, hsteps, ?_⟩
    rw [State.achieves, hrun]
    refine List.all_eq_true.2 fun f hf => ?_
    exact List.contains_iff_mem.2 (hlast f (Problem.mem_eachOnce.2 hf))

/-- A trip over two roads, with a box to be taken anywhere on the way. -/
def tripText : String :=
  "go :: at(X), to(X,Y), distinct(X,Y) => not at(X), at(Y)." ++
  "take :: near(X) => not near(X), has(X)." ++
  "at(a). to(a,b). to(b,c). near(box). goal at(c). goal has(box)."

/-- The trip has a plan, and what is said of plans is true of it. -/
theorem achieves_trip : ∃ p g r, Problem.parse tripText = .ok p ∧ p.ReservesDistinct ∧
    p.graph true 0 = .ok g ∧ g.solve.1 = .done r ∧ r.status = .solved ∧
    ∃ plan, r.plan = some plan ∧ (∀ t ∈ plan, t.noop = false ∧ p.IsInstance t) ∧
      State.achieves p.initial (plan.map .step) p.goals = true := by
  have hdecision : (Problem.outcome? tripText true 0).map (·.status) = some .solved := by
    decide +kernel
  have hreserves : (Problem.parse tripText).toOption.all (fun p => p.ReservesDistinct) = true := by
    decide +kernel
  obtain ⟨r, hr, hstatus⟩ := Option.map_eq_some_iff.1 hdecision
  obtain ⟨p, g, hp, hg, hsolve⟩ := Problem.exists_of_outcome?_eq_some hr
  rw [hp] at hreserves
  have hd : p.ReservesDistinct := of_decide_eq_true hreserves
  exact ⟨p, g, r, hp, hd, hg, hsolve, hstatus, achieves_of_solved hp hd hg hsolve hstatus⟩

end Graph

end Strips
