import Strips.Proofs.Soundness
import Strips.Proofs.StrictLevels
import Strips.Proofs.Termination
import Strips.Proofs.Unsolvability

/-!
# Strict mode only prunes

With and without strict mode an attempt to solve ends with the same plan after the same number of
levels, or with no plan both times.

What a plan through the levels is for is reached in as many parallel steps, and whatever is reached
in these steps is supported by the level of that number in either mode. A search that starts from
facts which only one of the modes supports therefore fails in both. Where both support them, strict
mode looks at the same covers in the same order, without those that need what is not supported one
level down.

The levels at which an attempt ends do not depend on the mode either: it ends with a plan at the
first level above the initial one at which the goals can be reached, unless its limit is lower.

## Main results

* `Built.plainSearch_eq` – at every level both modes find the same.
* `Problem.status_of_reachableIn` – an attempt finds a plan if there is one within its limit.
* `Graph.strict_only_prunes` – attempts in both modes end with the same plan.
-/

namespace Strips

open Relation

/-! ### The same search -/

namespace Built

variable {p : Problem} (hreg : ∀ s ∈ p.schemas, s.Regular) (hd : p.ReservesDistinct)

include hreg hd

/-- The facts of a level in strict mode are some of those that it has without it. -/
theorem within {top top' : Level} {rest rest' : List Level} (h : Built p true (top :: rest))
    (h' : Built p false (top' :: rest')) (hlen : rest.length = rest'.length) :
    top.facts.Within top'.facts := by
  generalize hlevels : top :: rest = levels at h
  induction h generalizing top rest top' rest' with
  | start hfacts =>
    obtain ⟨rfl, rfl⟩ := List.cons.inj hlevels
    cases h' with
    | start hfacts' =>
      rw [hfacts, hfacts']
      exact (List.filter_eq_self.2 fun f hf => List.contains_iff_mem.2 hf).symm
    | step => cases hlen
  | step hderives hrest ih =>
    obtain ⟨rfl, rfl⟩ := List.cons.inj hlevels
    cases h' with
    | start => cases hlen
    | step hderives' hrest' =>
      have hwithin := ih hrest' (Nat.succ.inj hlen) rfl
      exact hwithin.next hreg hderives hderives' (hrest.ladder.sound _ List.mem_cons_self)
        (hrest'.ladder.sound _ List.mem_cons_self)
        (hrest'.ladder.name_ne_distinct hreg hd _ List.mem_cons_self)

/-- No plan is found for what is not supported in the other mode. -/
theorem plainSearch_eq_none_of_supports_eq_false {strict strict' : Bool} {top top' : Level}
    {rest rest' : List Level} (h : Built p strict (top :: rest))
    (h' : Built p strict' (top' :: rest')) (hlen : rest.length = rest'.length)
    {facts : List Fact} (hno : top'.stage.supports facts = false) :
    plainSearch Step.preconditions (stagesOf (top :: rest)) facts = none := by
  refine Option.eq_none_iff_forall_ne_some.2 fun plan hplan => Bool.eq_false_iff.1 hno ?_
  -- the plan reaches the facts, and what is reached is supported in either mode
  obtain ⟨state, hstate, hfacts⟩ :=
    h.ladder.exists_reachableIn hreg hd (plainSearch_solves hplan)
  exact (h'.ladder.sound top' List.mem_cons_self).supports_mono hfacts
    (h'.ladder.supports hreg (hlen ▸ hstate))

/-- **At every level both modes find the same.** -/
theorem plainSearch_eq {levels levels' : List Level} (h : Built p true levels)
    (h' : Built p false levels') (hlen : levels.length = levels'.length) (facts : List Fact) :
    plainSearch Step.preconditions (stagesOf levels) facts =
      plainSearch Step.preconditions (stagesOf levels') facts := by
  induction h generalizing levels' facts with
  | start hfacts =>
    cases h' with
    | start hfacts' =>
      simp only [stagesOf, List.map_cons, List.map_nil, plainSearch, Level.stage, hfacts, hfacts']
    | step => cases hlen
  | @step newer older rest hderives hrest ih =>
    cases h' with
    | start => cases hlen
    | @step newer' older' rest' hderives' hrest' =>
      have hnewer : (older :: rest).length = (older' :: rest').length := Nat.succ.inj hlen
      have hstrict : Built p true (newer :: older :: rest) := .step hderives hrest
      have hloose : Built p false (newer' :: older' :: rest') := .step hderives' hrest'
      cases hs : newer.stage.supports facts with
      | false =>
        have hno := plainSearch_eq_none_of_supports_eq_false hreg hd hloose hstrict hnewer.symm hs
        exact (plainSearch_eq_none hs).trans hno.symm
      | true =>
        cases hs' : newer'.stage.supports facts with
        | false =>
          have hno := plainSearch_eq_none_of_supports_eq_false hreg hd hstrict hloose hnewer hs'
          exact hno.trans (plainSearch_eq_none hs').symm
        | true =>
          have hsound := hrest.ladder.sound older List.mem_cons_self
          have hnarrows := (hrest.within hreg hd hrest' (Nat.succ.inj hnewer)).narrows hreg hderives
            hderives' hsound (hrest'.ladder.sound _ List.mem_cons_self)
            (hrest'.ladder.name_ne_distinct hreg hd _ List.mem_cons_self)
          exact hnarrows.plainSearch_eq (fun hst => (Step.mem_preconditions_of_beq hst).1)
            (ih hrest' hnewer) (fun _ hno => plainSearch_eq_none hno)
            (hsound.supports_iff.2 ⟨by simp, by simp⟩) (hs.trans hs'.symm)

end Built

/-! ### The same end -/

namespace Problem

variable {p : Problem} (hreg : ∀ s ∈ p.schemas, s.Regular) {strict : Bool} {budget : Int}
  {g : Graph} (hg : p.graph strict budget = .ok g) {r : PlanResult} (hsolve : g.solve.1 = .done r)

include hreg hg hsolve

/-- The plan of an attempt is one that the plain search finds at the last level, which is not beyond
the limit. -/
theorem exists_plainSearch_of_solved (hstatus : r.status = .solved) :
    1 ≤ r.layersBuilt ∧ (budget.toNat = 0 ∨ r.layersBuilt ≤ budget.toNat) ∧
      ∃ top rest plan, Built p strict (top :: rest) ∧ rest.length = r.layersBuilt ∧
        plainSearch Step.preconditions (stagesOf (top :: rest)) (eachOnce p.goals) = some plan ∧
        r.plan = some (withoutNoops plan) := by
  have hstart := explored_of_graph hreg hg
  obtain ⟨hbudget, hmode⟩ := settings_of_graph hreg hg
  obtain ⟨before, after, hrun, hends⟩ := Graph.exists_of_solve hsolve
  have hbefore := hstart.reflTransGen hreg hrun
  obtain ⟨hbudget', hmode'⟩ := hstart.settings_of_reflTransGen hreg hrun
  cases hends with
  | exhausted => cases hstatus
  | closed => cases hstatus
  | settled => cases hstatus
  | @found g' _ plan hexpand hreach hextract hlimit =>
    obtain ⟨hexplored, _, _, level, -, -, -, hlevels, hmode'', -⟩ := hbefore.expand hexpand
    have hlength : after.levels.length - 1 = before.levels.length := by
      rw [(hexplored.keeps_of_extract hreach hextract).2, hlevels]
      rfl
    have hpos := List.length_pos_of_ne_nil hbefore.ladder.ne_nil
    have hbuilt := hexplored.built
    have hplan := (hexplored.extract hreach hextract).1
    rw [hexplored.plainSearch_eq, hlevels] at hplan
    rw [hlevels, hmode'', hmode', hmode] at hbuilt
    rw [hbudget', hbudget, Graph.layersBuilt] at hlimit
    refine ⟨?_, ?_, level, before.levels, plan, hbuilt, hlength.symm, hplan.symm, rfl⟩
    · change 1 ≤ after.levels.length - 1
      omega
    · change budget.toNat = 0 ∨ after.levels.length - 1 ≤ budget.toNat
      omega

/-- **An attempt finds a plan if there is one within its limit**, and it needs no more levels than
the plan has parallel steps. -/
theorem status_of_reachableIn {count : Nat} (hpos : 1 ≤ count)
    (hcount : budget.toNat = 0 ∨ count ≤ budget.toNat) {state : State}
    (hstate : p.ReachableIn count state) (hgoals : ∀ f ∈ p.goals, f ∈ state) :
    r.status = .solved ∧ r.layersBuilt ≤ count := by
  have hstart := explored_of_graph hreg hg
  rw [← (settings_of_graph hreg hg).1] at hcount
  obtain ⟨before, after, hrun, hends⟩ := Graph.exists_of_solve hsolve
  have hbefore := hstart.reflTransGen hreg hrun
  have hbudget := (hstart.settings_of_reflTransGen hreg hrun).1
  have hreached : ¬∃ f ∈ eachOnce p.goals, f ∉ state := by
    rintro ⟨f, hf, hno⟩
    exact hno (hgoals f (mem_eachOnce.1 hf))
  -- the goals would have been found at a level that was searched before
  have hlevels : before.levels.length ≤ count := Nat.not_lt.1 fun hlt =>
    hreached (hbefore.exists_not_mem hreg hpos hlt hstate)
  cases hends with
  | exhausted hlimit hle =>
    have hlength := List.length_pos_of_ne_nil hbefore.ladder.ne_nil
    rw [hbudget] at hlimit hle
    rw [Graph.layersBuilt] at hle
    omega
  | closed hexpand =>
    obtain ⟨hexplored, _, _, level, -, -, -, hlevels', -, hsupports, -, hgrew⟩ :=
      hbefore.expand hexpand
    obtain ⟨hunreached, hsome⟩ := Bool.or_eq_false_iff.1 hgrew.symm
    obtain ⟨number, hnumber⟩ := Option.ne_none_iff_exists'.1
      (fun hnone => Bool.eq_false_iff.1 hsome (Option.isNone_iff_eq_none.2 hnone))
    exact absurd (hexplored.exists_not_mem_of_closed hreg hlevels' (hsupports ▸ hunreached) hnumber
      hstate) hreached
  | settled hexpand hreach hextract hfixed hsame =>
    exact absurd ((hbefore.expand hexpand).1.exists_not_mem_of_settled hreg hreach hextract hfixed
      hsame hstate) hreached
  | found hexpand hreach hextract =>
    obtain ⟨hexplored, _, _, _, -, -, -, hlevels', -⟩ := hbefore.expand hexpand
    refine ⟨rfl, ?_⟩
    change after.levels.length - 1 ≤ count
    rw [(hexplored.keeps_of_extract hreach hextract).2, hlevels', List.length_cons]
    exact hlevels

/-- When one attempt finds a plan, then so does another one with the same limit, in either mode, and
it needs no more levels. -/
theorem solved_of_solved (hd : p.ReservesDistinct) {strict' : Bool} {g' : Graph}
    (hg' : p.graph strict' budget = .ok g') {r' : PlanResult} (hsolve' : g'.solve.1 = .done r')
    (hstatus : r.status = .solved) : r'.status = .solved ∧ r'.layersBuilt ≤ r.layersBuilt := by
  obtain ⟨hpos, hlimit, top, rest, plan, hbuilt, hlength, hplan, -⟩ :=
    exists_plainSearch_of_solved hreg hg hsolve hstatus
  obtain ⟨state, hstate, hgoals⟩ :=
    hbuilt.ladder.exists_reachableIn hreg hd (plainSearch_solves hplan)
  rw [hlength] at hstate
  exact status_of_reachableIn hreg hg' hsolve' hpos hlimit hstate
    fun f hf => hgoals f (mem_eachOnce.2 hf)

end Problem

namespace Graph

/-- **Strict mode only prunes.** With the same limit an attempt in strict mode finds a plan exactly
if one without it does, and then both find the same plan at the same level. A negative limit is
refused in both modes. -/
theorem strict_only_prunes {text : String} {p : Problem} (hp : Problem.parse text = .ok p)
    (hd : p.ReservesDistinct) (budget : Int) :
    (budget < 0 ∧ ∀ strict, p.graph strict budget = .error (.negativeBudget budget)) ∨
      ∃ g g' r r', p.graph true budget = .ok g ∧ p.graph false budget = .ok g' ∧
        g.solve.1 = .done r ∧ g'.solve.1 = .done r' ∧
        (r.status = .solved ↔ r'.status = .solved) ∧
        (r.status = .solved → r.plan = r'.plan ∧ r.layersBuilt = r'.layersBuilt) := by
  have hreg := Problem.regular_of_parse hp
  by_cases hbudget : budget < 0
  · exact .inl ⟨hbudget, fun strict =>
      (Problem.graph_eq hreg strict budget).trans (if_pos hbudget)⟩
  obtain ⟨g, hg⟩ : ∃ g, p.graph true budget = .ok g :=
    ⟨_, (Problem.graph_eq hreg true budget).trans (if_neg hbudget)⟩
  obtain ⟨g', hg'⟩ : ∃ g', p.graph false budget = .ok g' :=
    ⟨_, (Problem.graph_eq hreg false budget).trans (if_neg hbudget)⟩
  obtain ⟨r, hr⟩ := Problem.exists_done hreg hd hg
  obtain ⟨r', hr'⟩ := Problem.exists_done hreg hd hg'
  have hforth := Problem.solved_of_solved hreg hg hr hd hg' hr'
  have hback := Problem.solved_of_solved hreg hg' hr' hd hg hr
  refine .inr ⟨g, g', r, r', hg, hg', hr, hr', ⟨fun hs => (hforth hs).1, fun hs => (hback hs).1⟩,
    fun hs => ?_⟩
  obtain ⟨hs', hle⟩ := hforth hs
  have hlayers : r.layersBuilt = r'.layersBuilt := Nat.le_antisymm (hback hs').2 hle
  obtain ⟨-, -, top, rest, plan, hbuilt, hlength, hplan, heq⟩ :=
    Problem.exists_plainSearch_of_solved hreg hg hr hs
  obtain ⟨-, -, top', rest', plan', hbuilt', hlength', hplan', heq'⟩ :=
    Problem.exists_plainSearch_of_solved hreg hg' hr' hs'
  have hsame := hbuilt.plainSearch_eq hreg hd hbuilt'
    (congrArg (· + 1) (hlength.trans (hlayers.trans hlength'.symm))) (Problem.eachOnce p.goals)
  rw [hplan, hplan'] at hsame
  exact ⟨heq.trans (Option.some.inj hsame ▸ heq'.symm), hlayers⟩

/-- Two blocks, the upper one of which is to be the lower one. -/
def blocksText : String :=
  "move :: on(X,Y), clear(X), clear(Z), distinct(X,Z) => " ++
  "not on(X,Y), not clear(Z), on(X,Z), clear(Y)." ++
  "on(a,b). on(b,p). clear(a). clear(q). goal on(b,a)."

/-- Strict mode does without the moves of the second level that need two of the exclusive places of
a block, and the plan is the same. -/
theorem strict_only_prunes_blocks : ∃ p g g' r r', Problem.parse blocksText = .ok p ∧
    p.ReservesDistinct ∧ p.graph true 0 = .ok g ∧ p.graph false 0 = .ok g' ∧
    g.solve.1 = .done r ∧ g'.solve.1 = .done r' ∧ r.status = .solved ∧ r'.status = .solved ∧
    r.plan = r'.plan ∧ r.layersBuilt = 2 ∧ r'.layersBuilt = 2 := by
  have hdecision : (Problem.outcome? blocksText true 0).map
      (fun r => (r.status, r.layersBuilt)) = some (.solved, 2) := by
    decide +kernel
  have hreserves :
      (Problem.parse blocksText).toOption.all (fun p => p.ReservesDistinct) = true := by
    decide +kernel
  obtain ⟨r, hr, hpair⟩ := Option.map_eq_some_iff.1 hdecision
  obtain ⟨hstatus, hlayers⟩ := Prod.mk.inj hpair
  obtain ⟨p, g, hp, hg, hsolve⟩ := Problem.exists_of_outcome?_eq_some hr
  rw [hp] at hreserves
  have hd : p.ReservesDistinct := of_decide_eq_true hreserves
  obtain ⟨hnegative, -⟩ | ⟨h, g', s, r', hh, hg', hs, hsolve', hiff, hsame⟩ :=
    strict_only_prunes hp hd 0
  · exact absurd hnegative (by decide)
  obtain rfl := Except.ok.inj (hg.symm.trans hh)
  obtain rfl : r = s := Round.done.inj (hsolve.symm.trans hs)
  obtain ⟨hplan, hlevels⟩ := hsame hstatus
  exact ⟨p, g, g', r, r', hp, hd, hg, hg', hsolve, hsolve', hstatus, hiff.1 hstatus, hplan, hlayers,
    hlevels.symm.trans hlayers⟩

end Graph

end Strips
