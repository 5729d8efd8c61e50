import Strips.Proofs.FixedPoint
import Strips.Proofs.StrictLevels
import Strips.Proofs.Termination

/-!
# Facts persist

Over every fact of a level stands one step that keeps it, and that step needs the fact, adds it and
deletes nothing. This is so for all names of facts but one. The step is made like an action, and
among the preconditions of an action the name of the constraints stands for a constraint: the step
for such a fact is refused, or if the fact has two arguments the step needs nothing. So facts
persist exactly if no level holds a fact of that name, and nothing fails then.

## Main definitions

* `ActionLayer.Keeps` – one step keeps a fact.
* `Graph.Persists` – nothing fails, and every fact is kept.

## Main results

* `FactLayer.keeps_of_buildActions` – one step of the layer keeps a fact.
* `Graph.persists_iff` – when facts persist.
-/

namespace Strips

open Relation

/-- Among the steps that keep facts one alone adds the fact, and it does what it should do. -/
def ActionLayer.Keeps (actions : ActionLayer) (f : Fact) : Prop :=
  ∃ k, actions.steps.filter (fun s => s.noop && s.added.contains f) = [k] ∧
    k.preconditions = [f] ∧ k.deleted = [] ∧ k.added = [f]

/-! ### One layer -/

/-- **One step of an action layer keeps a fact**, if no fact is named like the constraints. -/
theorem FactLayer.keeps_of_buildActions {source : FactLayer} (hnodup : source.facts.Nodup)
    (hd : ∀ f ∈ source.facts, f.name ≠ distinctName) {schemas : List Schema}
    (hreg : ∀ s ∈ schemas, s.Regular) {strict : Bool} {actions : ActionLayer}
    {effects : Index Fact Step} (h : source.buildActions schemas strict [] = .ok (actions, effects))
    {f : Fact} (hf : f ∈ source.facts) : actions.Keeps f := by
  refine ⟨Step.keeping f, ?_, rfl, rfl, rfl⟩
  have hkept : (source.facts.map Step.keeping).filter (fun s => s.noop && s.added.contains f) =
      [Step.keeping f] := by
    have hadds : (fun s : Step => s.noop && s.added.contains f) ∘ Step.keeping = (· == f) := by
      funext g
      simp [Step.keeping, Bool.beq_eq_decide_eq, eq_comm]
    rw [List.filter_map, hadds, List.filter_beq, List.count_eq_one_of_mem hnodup hf]
    rfl
  have hnone : ((schemas.flatMap fun s => s.instances source strict).filter
      fun s => s.noop && s.added.contains f) = [] := by
    refine List.filter_eq_nil_iff.2 fun t ht => ?_
    obtain ⟨s, hs, ht⟩ := List.mem_flatMap.1 ht
    obtain ⟨σ, -, rfl, -⟩ := (hreg s hs).exists_under ht
    simp [Action.under, (hreg s hs).noop]
  rw [steps_of_buildActions hd h, List.filter_append, hkept, filter_foldl_choose, hnone]
  · rfl
  · intro s t hst
    have hadds : s.added.contains f = t.added.contains f :=
      Bool.eq_iff_iff.2 (by simpa using Step.mem_added_of_beq hst)
    rw [(Step.beq_iff.1 hst).1, hadds]

/-- The step for a fact that is named like the constraints does not need the fact. -/
theorem Step.name_ne_distinct_of_keep {f : Fact} {k : Step} (h : keep f = .ok k)
    (hf : f ∈ k.preconditions) : f.name ≠ distinctName := by
  intro hname
  rw [keep, if_pos hname] at h
  split at h
  · cases h
    cases hf
  · cases h

/-- A fact over which a step stands that keeps it is not named like the constraints. -/
theorem ActionLayer.Over.name_ne_distinct {actions : ActionLayer} {schemas : List Schema}
    {strict : Bool} {source : FactLayer} (h : actions.Over schemas strict source)
    (hreg : ∀ s ∈ schemas, s.Regular) {f : Fact} (hkeeps : actions.Keeps f) :
    f.name ≠ distinctName := by
  obtain ⟨k, hk, hpre, -, hadd⟩ := hkeeps
  obtain ⟨hmem, hnoop⟩ := List.mem_filter.1 (hk ▸ List.mem_singleton_self k)
  rcases h.origin k hmem with ⟨g, -, hkeep⟩ | ⟨s, hs, hinst⟩
  · obtain ⟨-, -, hadd', -⟩ := Step.keep_eq_ok hkeep
    obtain rfl : f = g := List.singleton_inj.1 (hadd.symm.trans hadd')
    exact Step.name_ne_distinct_of_keep hkeep (hpre ▸ List.mem_singleton_self f)
  · obtain ⟨σ, -, rfl, -⟩ := (hreg s hs).exists_under hinst
    simp [Action.under, (hreg s hs).noop] at hnoop

/-! ### Graphs -/

namespace Graph

/-- Nothing fails, and over every fact of a level stands one step that keeps it. -/
structure Persists (g : Graph) : Prop where
  expands : ∀ calls, ∃ grew, (g.calls calls).expand.1 = .ok grew
  decides : ∃ r, g.solve.1 = .done r
  keeps : ∀ calls number older newer, (g.calls calls).level? number = some older →
    (g.calls calls).level? (number + 1) = some newer →
    ∃ actions, newer.actions = some actions ∧ ∀ f ∈ older.facts.facts, actions.Keeps f

/-- After a round that is to be followed by another one the graph was expanded, and maybe
searched. -/
theorem Again.exists_calls {g h : Graph} (hgh : g.Again h) : ∃ calls, g.calls calls = h := by
  cases hgh.roundEnds with
  | unreached hexpand => exact ⟨[.expand], by rw [calls, List.foldl_cons, call, hexpand]; rfl⟩
  | resumed hexpand hreach hextract =>
    refine ⟨[.expand, .extract], ?_⟩
    rw [calls, List.foldl_cons, call, hexpand, List.foldl_cons, call, hextract]
    rfl

theorem exists_calls_of_reflTransGen {g h : Graph} (hrun : ReflTransGen Again g h) :
    ∃ calls, g.calls calls = h := by
  induction hrun with
  | refl => exact ⟨[], rfl⟩
  | tail _ hgh ih =>
    obtain ⟨calls, rfl⟩ := ih
    obtain ⟨more, rfl⟩ := hgh.exists_calls
    exact ⟨calls ++ more, calls_append _ _ _⟩

/-- **If no level holds a fact named like the constraints, then facts persist.** -/
theorem persists_of_name_ne_distinct {p : Problem} (hreg : ∀ s ∈ p.schemas, s.Regular)
    {strict : Bool} {budget : Int} {g : Graph} (hg : p.graph strict budget = .ok g)
    (hd : ∀ calls, ∀ level ∈ (g.calls calls).levels, ∀ f ∈ level.facts.facts,
      f.name ≠ distinctName) : g.Persists := by
  have hstart := Problem.explored_of_graph hreg hg
  refine ⟨fun calls => ?_, ?_, fun calls number older newer holder hnewer => ?_⟩
  · have h := hstart.calls hreg calls
    cases hexpand : (g.calls calls).expand.1 with
    | ok grew => exact ⟨grew, rfl⟩
    | error e =>
      obtain ⟨-, newest, rest, hlevels, f, hf, cause, hkeep, -⟩ :=
        h.expand_eq_error hreg (Prod.ext hexpand rfl)
      exact absurd (Step.keep_eq_error hkeep).1
        (hd calls newest (hlevels ▸ List.mem_cons_self) f hf)
  · obtain ⟨count, hne, hsolve⟩ := Problem.exists_rounds_eq hreg hg
    rcases hstart.done_of_rounds hreg hne with
      ⟨r, hr, -⟩ | ⟨h, hrun, level, hlevel, f, hf, hname, -⟩
    · exact ⟨r, hsolve.trans hr⟩
    · obtain ⟨calls, rfl⟩ := exists_calls_of_reflTransGen hrun
      exact absurd hname (hd calls level hlevel f hf)
  · have h := hstart.calls hreg calls
    obtain ⟨⟨actions, effects, hbuild, hactions, -⟩, hsound⟩ := h.derives holder hnewer
    have hmem := List.mem_of_getElem? (getElem?_of_level?_eq holder).2
    exact ⟨actions, hactions, fun f hf =>
      FactLayer.keeps_of_buildActions hsound.nodup (hd calls older hmem) hreg hbuild hf⟩

/-- **If facts persist, then no level holds a fact named like the constraints**: the level could be
expanded, and the step over the fact would not need it. -/
theorem Persists.name_ne_distinct {p : Problem} (hreg : ∀ s ∈ p.schemas, s.Regular)
    {g : Graph} {goals : List Fact} (hg : g.Consistent p goals) (h : g.Persists)
    (calls : List Call) : ∀ level ∈ (g.calls calls).levels, ∀ f ∈ level.facts.facts,
      f.name ≠ distinctName := by
  intro level hlevel f hf
  have hc := hg.calls hreg calls
  obtain ⟨grew, hgrew⟩ := h.expands calls
  have hcalls : g.calls (calls ++ [.expand]) = (g.calls calls).expand.2 := calls_append _ _ _
  rcases hexpand : (g.calls calls).expand with ⟨answer, next⟩
  rw [hexpand] at hcalls hgrew
  obtain rfl : answer = .ok grew := hgrew
  obtain ⟨hnext, newest, rest, top, -, -, -, hlevels, -⟩ := hc.expand hexpand
  obtain ⟨number, hnumber⟩ : ∃ number, (g.calls calls).level? number = some level :=
    List.getElem?_of_mem (List.mem_reverse.2 hlevel)
  have holder : next.level? number = some level := level?_of_levels_eq_cons hlevels hnumber
  obtain ⟨newer, hnewer⟩ : ∃ newer, next.level? (number + 1) = some newer := by
    refine exists_level?_of_lt ?_
    rw [hlevels, List.length_cons]
    exact Nat.succ_lt_succ (getElem?_of_level?_eq hnumber).1
  obtain ⟨hderives, hsound⟩ := hnext.derives holder hnewer
  obtain ⟨actions, hactions, hover, -⟩ := hderives.follows hsound
  obtain ⟨actions', hactions', hkeeps⟩ :=
    h.keeps (calls ++ [.expand]) number level newer (hcalls ▸ holder) (hcalls ▸ hnewer)
  obtain rfl := Option.some.inj (hactions.symm.trans hactions')
  exact hover.name_ne_distinct hreg (hkeeps f hf)

/-- **When facts persist.** Of a problem that is loaded, with whatever limit and in either mode,
facts persist exactly if no level that can be built holds a fact named like the constraints, which
is so if the problem reserves that name. -/
theorem persists_iff {text : String} {p : Problem} (hp : Problem.parse text = .ok p)
    (strict : Bool) (budget : Nat) : ∃ g, p.graph strict budget = .ok g ∧
      (g.Persists ↔ ∀ calls, ∀ level ∈ (g.calls calls).levels, ∀ f ∈ level.facts.facts,
        f.name ≠ distinctName) ∧
      (p.ReservesDistinct → g.Persists) := by
  have hreg := Problem.regular_of_parse hp
  obtain ⟨g, hg⟩ : ∃ g, p.graph strict budget = .ok g := by
    rw [Problem.graph_eq hreg, if_neg (Int.not_lt.2 (Int.natCast_nonneg budget))]
    exact ⟨_, rfl⟩
  have hstart := Problem.consistent_of_graph hreg hg
  refine ⟨g, hg, ⟨fun h => h.name_ne_distinct hreg hstart, persists_of_name_ne_distinct hreg hg⟩,
    fun hd => persists_of_name_ne_distinct hreg hg fun calls => ?_⟩
  exact (hstart.calls hreg calls).ladder.name_ne_distinct hreg hd

/-- A lamp that can be switched on. -/
def switchText : String := "switch :: off(X) => not off(X), on(X). off(a). goal on(a)."

/-- Off and on persist. -/
theorem persists_switch : ∃ p g, Problem.parse switchText = .ok p ∧ p.ReservesDistinct ∧
    p.graph true (0 : Nat) = .ok g ∧ g.Persists := by
  have hread : (Problem.parse switchText).toOption.any (fun p => p.ReservesDistinct) = true := by
    decide +kernel
  cases hp : Problem.parse switchText with
  | error e =>
    rw [hp] at hread
    cases hread
  | ok p =>
    rw [hp] at hread
    have hd : p.ReservesDistinct := of_decide_eq_true hread
    obtain ⟨g, hg, -, hpersists⟩ := persists_iff hp true 0
    exact ⟨p, g, rfl, hd, hg, hpersists hd⟩

/-- A fact named like the constraints, which is the goal too. -/
def distinctText : String := "distinct(a). goal distinct(a)."

/-- The fact is not kept: the graph cannot be expanded, and the attempt to solve fails. -/
theorem not_persists_distinct : ∃ p g, Problem.parse distinctText = .ok p ∧
    p.graph false 0 = .ok g ∧ ¬ g.Persists ∧
    g.expand.1 = .error (.layer (.schema (.distinctArity noopName 1))) ∧
    g.solve.1 = .failed (.layer (.schema (.distinctArity noopName 1))) := by
  have hfailed : (Problem.graphAfter? distinctText false []).any (fun g =>
      match g.expand.1, g.solve.1 with
      | .error e, .failed e' => e = .layer (.schema (.distinctArity noopName 1)) ∧ e' = e
      | _, _ => false) = true := by decide +kernel
  obtain ⟨_, hafter, hfailed⟩ := (Option.any_eq_true _ _).1 hfailed
  obtain ⟨p, g, hp, hg, rfl⟩ := Problem.exists_of_graphAfter?_eq_some hafter
  change (match g.expand.1, g.solve.1 with
    | .error e, .failed e' => decide (e = .layer (.schema (.distinctArity noopName 1)) ∧ e' = e)
    | _, _ => false) = true at hfailed
  split at hfailed
  · rename_i e e' hexpand hsolve
    obtain ⟨rfl, rfl⟩ := of_decide_eq_true hfailed
    refine ⟨p, g, hp, hg, fun h => ?_, hexpand, hsolve⟩
    obtain ⟨grew, hgrew⟩ := h.expands []
    cases hexpand.symm.trans hgrew
  · cases hfailed

end Graph

end Strips
