import Strips.Proofs.Termination

/-!
# Facts at which attempts fail

An action layer has a step for each fact that keeps it, and the step is made like an action, among
whose preconditions the name of the constraints stands for a constraint. So no step can keep a fact
of this name that has not two arguments. Nothing else can go wrong in an attempt to solve: it fails
if it comes to a level that holds such a fact and would go on from there, and ends with a result
otherwise.

## Main definitions

* `Fact.Unkept` – no step can keep the fact.
* `Graph.Halts` – an attempt to solve comes to such a fact.

## Main results

* `Problem.solve_of_halts` – the attempt fails there.
* `Problem.exists_done_or_halts` – it ends with a result otherwise.
-/

namespace Strips

open Relation

/-! ### Facts that no step can keep -/

/-- No step can keep the fact: it is named like the constraints and has not two arguments. -/
def Fact.Unkept (f : Fact) : Prop := f.name = distinctName ∧ f.arguments.length ≠ 2

instance : DecidablePred Fact.Unkept := fun f =>
  inferInstanceAs (Decidable (f.name = distinctName ∧ f.arguments.length ≠ 2))

namespace Step

variable {f : Fact}

theorem keep_eq_error_iff {e : SchemaError} :
    keep f = .error e ↔ f.Unkept ∧ e = .distinctArity noopName f.arguments.length := by
  rw [keep, Fact.Unkept]
  by_cases hname : f.name = distinctName
  · by_cases harity : f.arguments.length = 2
    · simp [hname, harity]
    · simp [hname, harity, eq_comm]
  · simp [hname]

/-- The first fact that no step can keep is the one that is reported. -/
theorem mapM_keep_eq_error {facts : List Fact} (h : facts.find? (·.Unkept) = some f) :
    facts.mapM keep = .error (.distinctArity noopName f.arguments.length) := by
  induction facts with
  | nil => cases h
  | cons g rest ih =>
    rw [List.mapM_cons]
    cases hkeep : keep g with
    | error e =>
      obtain ⟨hg, rfl⟩ := keep_eq_error_iff.1 hkeep
      rw [List.find?_cons_of_pos (by simpa using hg)] at h
      obtain rfl := Option.some.inj h
      rfl
    | ok k =>
      have hg : ¬ g.Unkept := fun hg => by cases hkeep.symm.trans (keep_eq_error_iff.2 ⟨hg, rfl⟩)
      rw [List.find?_cons_of_neg (by simpa using hg)] at h
      rw [ih h]
      rfl

end Step

/-! ### Attempts that fail -/

namespace Graph

variable {g : Graph} {f : Fact}

/-- An attempt to solve comes to a level from which it would go on, and the fact is the first one of
that level that no step can keep. -/
def Halts (g : Graph) (f : Fact) : Prop :=
  ∃ h, ReflTransGen Again g h ∧ ¬(h.budget ≠ 0 ∧ h.budget ≤ h.layersBuilt) ∧
    h.newestFacts.find? (·.Unkept) = some f

/-- There is no level above a fact that no step can keep. -/
theorem expand_of_unkept (hfact : g.newestFacts.find? (·.Unkept) = some f) :
    g.expand = (.error (.layer (.schema (.distinctArity noopName f.arguments.length))), g) := by
  cases hlevels : g.levels with
  | nil =>
    rw [newestFacts, hlevels] at hfact
    cases hfact
  | cons newest rest =>
    replace hfact : newest.facts.facts.find? (·.Unkept) = some f := by
      rwa [newestFacts, hlevels] at hfact
    have hnext : g.nextLevel newest =
        .error (.schema (.distinctArity noopName f.arguments.length)) := by
      rw [nextLevel, FactLayer.buildActions, Step.mapM_keep_eq_error hfact]
      rfl
    rw [expand, hlevels]
    dsimp only
    rw [hnext]

theorem round_of_unkept (hbudget : ¬(g.budget ≠ 0 ∧ g.budget ≤ g.layersBuilt))
    (hfact : g.newestFacts.find? (·.Unkept) = some f) :
    g.round.1 = .failed (.layer (.schema (.distinctArity noopName f.arguments.length))) := by
  rw [round, if_neg hbudget, expand_of_unkept hfact]

end Graph

namespace Problem

variable {p : Problem} {strict : Bool} {budget : Int} {g : Graph}

/-- An attempt that comes to a fact that no step can keep fails there. -/
theorem solve_of_halts (hreg : ∀ s ∈ p.schemas, s.Regular) (hg : p.graph strict budget = .ok g)
    {f : Fact} (h : g.Halts f) :
    g.solve.1 = .failed (.layer (.schema (.distinctArity noopName f.arguments.length))) := by
  obtain ⟨last, hrun, hbudget, hfact⟩ := h
  have hround := Graph.round_of_unkept hbudget hfact
  exact (solve_eq_round hreg hg hrun (by simp [hround])).1.trans hround

/-- There is no such fact if the name of the constraints is used for nothing else. -/
theorem not_halts (hreg : ∀ s ∈ p.schemas, s.Regular) (hd : p.ReservesDistinct)
    (hg : p.graph strict budget = .ok g) {f : Fact} : ¬ g.Halts f := by
  intro h
  obtain ⟨r, hr⟩ := exists_done hreg hd hg
  cases hr.symm.trans (solve_of_halts hreg hg h)

/-- **An attempt comes to a result or to a fact that no step can keep.** -/
theorem exists_done_or_halts (hreg : ∀ s ∈ p.schemas, s.Regular)
    (hg : p.graph strict budget = .ok g) : (∃ r, g.solve.1 = .done r) ∨ ∃ f, g.Halts f := by
  have hstart := explored_of_graph hreg hg
  obtain ⟨count, hne, hsolve⟩ := exists_rounds_eq hreg hg
  rw [← hsolve] at hne
  obtain ⟨last, hrun, hround, -⟩ := Graph.exists_round_of_solve hne hstart.ladder.ne_nil
  have hlast := hstart.reflTransGen hreg hrun
  have hends := last.roundEnds
  rw [hround] at hends
  generalize last.round.2.2 = after at hends
  generalize hfinal : g.solve.1 = final at *
  cases hends with
  | exhausted | closed | found | settled => exact .inl ⟨_, rfl⟩
  | unreached | resumed => exact absurd rfl hne
  | unsearched hexpand hextract =>
    obtain ⟨answer, _, hanswer⟩ := (hlast.expand hexpand).1.exists_extract
    cases hextract.symm.trans hanswer
  | stuck hexpand =>
    obtain ⟨-, newest, rest, hlevels, f, hf, cause, hkeep, -⟩ :=
      hlast.toConsistent.expand_eq_error hreg hexpand
    have hunkept := (Step.keep_eq_error_iff.1 hkeep).1
    obtain ⟨first, hfirst⟩ : ∃ first, newest.facts.facts.find? (·.Unkept) = some first :=
      Option.isSome_iff_exists.1 (List.find?_isSome.2 ⟨f, hf, by simpa using hunkept⟩)
    refine .inr ⟨first, last, hrun, fun hbudget => ?_, ?_⟩
    · cases (Graph.round_of_budget_le hbudget).1.symm.trans hround
    · rw [Graph.newestFacts, hlevels]
      exact hfirst

end Problem

end Strips
