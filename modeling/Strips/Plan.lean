import Strips.Step

/-!
# Running plans

A state is a list of facts, each once. A step applies in a state that has all its preconditions; it
takes the deleted facts out and then adds the added ones. A plan runs step by step from a state.

## Main definitions

* `State.apply` – one step.
* `State.run`, `State.achieves` – a plan, and whether it makes all goals true.

## Main results

* `State.mem_after` – what is true after a step.
-/

namespace Strips

/-- The facts that are true. -/
abbrev State : Type := List Fact

/-- An action of a plan that was made by hand: a step, or an action with unbound variables, which
can be printed but not run. -/
inductive PlanEntry where
  | step (step : Step)
  | unbound (text : String)
  deriving Repr

/-- The printed form of an action of a plan. -/
def PlanEntry.text : PlanEntry → String
  | step s => s.text
  | unbound text => text

/-- Why an action does not apply. -/
inductive ApplyError where
  /-- The action, printed, has unbound variables. -/
  | notGround (action : String)
  /-- Preconditions of the action, printed, that are not true. -/
  | missing (action : String) (facts : List Fact)
  deriving DecidableEq, Repr

namespace ApplyError

/-- The action that does not apply, printed. -/
def action : ApplyError → String
  | notGround action | missing action _ => action

/-- The message about an action that does not apply. -/
def message : ApplyError → String
  | notGround action => s!"Action {action} is not ground"
  | missing action facts =>
    s!"Action {action} is not applicable, missing: " ++ ", ".intercalate (facts.map Fact.text)

end ApplyError

/-- The first action of a plan that does not apply, counted from zero. -/
structure RunError where
  index : Nat
  cause : ApplyError
  deriving DecidableEq, Repr

/-- The message about a plan that does not run; actions are counted from one. -/
def RunError.message (e : RunError) : String := s!"Step {e.index + 1}: {e.cause.message}"

namespace State

/-- The state with a fact. -/
def insert (state : State) (f : Fact) : State := if state.contains f then state else state ++ [f]

/-- The state of the facts of a list. -/
def ofList (facts : List Fact) : State := facts.foldl insert []

@[simp] theorem mem_insert {state : State} {f g : Fact} :
    g ∈ state.insert f ↔ g ∈ state ∨ g = f := by
  rw [insert]
  split
  · rename_i h
    exact ⟨.inl, fun hg => hg.elim id fun e => e ▸ List.contains_iff_mem.1 h⟩
  · rw [List.mem_append, List.mem_singleton]

theorem nodup_insert {state : State} {f : Fact} (h : state.Nodup) : (state.insert f).Nodup := by
  rw [insert]
  split
  · exact h
  · rename_i hf
    rw [List.contains_iff_mem] at hf
    refine List.nodup_append.2 ⟨h, List.pairwise_singleton _ f, fun a ha b hb e => hf ?_⟩
    rw [List.mem_singleton.1 hb] at e
    exact e ▸ ha

theorem mem_insertAll {facts : List Fact} {f : Fact} : ∀ {state : State},
    f ∈ facts.foldl insert state ↔ f ∈ state ∨ f ∈ facts := by
  induction facts with
  | nil => intro state; simp
  | cons g rest ih =>
    intro state
    rw [List.foldl_cons, ih, mem_insert, List.mem_cons, or_assoc]

theorem nodup_insertAll {facts : List Fact} : ∀ {state : State},
    state.Nodup → (facts.foldl insert state).Nodup := by
  induction facts with
  | nil => exact id
  | cons g rest ih => exact fun h => ih (nodup_insert h)

@[simp] theorem mem_ofList {facts : List Fact} {f : Fact} : f ∈ ofList facts ↔ f ∈ facts := by
  rw [ofList, mem_insertAll]
  simp

theorem nodup_ofList (facts : List Fact) : (ofList facts).Nodup := nodup_insertAll .nil

/-- The preconditions of a step that are not true. -/
def missing (state : State) (s : Step) : List Fact :=
  s.preconditions.filter fun f => !state.contains f

/-- The state after a step. -/
def after (state : State) (s : Step) : State :=
  s.added.foldl insert (ofList (state.filter fun f => !s.deleted.contains f))

/-- After a step its added facts are true, and those that were true and are not deleted. -/
@[simp] theorem mem_after {state : State} {s : Step} {f : Fact} :
    f ∈ state.after s ↔ (f ∈ state ∧ f ∉ s.deleted) ∨ f ∈ s.added := by
  rw [after, mem_insertAll, mem_ofList, List.mem_filter]
  simp

theorem nodup_after (state : State) (s : Step) : (state.after s).Nodup :=
  nodup_insertAll (nodup_ofList _)

theorem missing_eq_nil_iff {state : State} {s : Step} :
    state.missing s = [] ↔ ∀ f ∈ s.preconditions, f ∈ state := by
  rw [missing, List.filter_eq_nil_iff]
  simp

/-- Take a step. -/
def apply (state : State) (s : Step) : Except ApplyError State :=
  if (state.missing s).isEmpty then .ok (state.after s)
  else .error (.missing s.text (state.missing s))

theorem apply_eq_ok_iff {state next : State} {s : Step} :
    state.apply s = .ok next ↔ (∀ f ∈ s.preconditions, f ∈ state) ∧ next = state.after s := by
  rw [apply, ← missing_eq_nil_iff, ← List.isEmpty_iff]
  split
  · rename_i hmissing
    rw [Except.ok.injEq, eq_comm]
    exact (and_iff_right hmissing).symm
  · rename_i hmissing
    exact ⟨nofun, fun h => absurd h.1 hmissing⟩

/-- Take an action of a plan. -/
def applyEntry (state : State) : PlanEntry → Except ApplyError State
  | .step s => state.apply s
  | .unbound text => .error (.notGround text)

/-- Run the rest of a plan, from its action number `index` on. -/
def runFrom (index : Nat) (state : State) : List PlanEntry → Except RunError State
  | [] => .ok state
  | e :: rest =>
    match state.applyEntry e with
    | .ok state => runFrom (index + 1) state rest
    | .error cause => .error ⟨index, cause⟩

/-- A plan runs if its first step applies and the rest runs from the state after it. -/
theorem runFrom_step_cons_eq_ok_iff {index : Nat} {state last : State} {s : Step}
    {rest : List PlanEntry} : runFrom index state (.step s :: rest) = .ok last ↔
      (∀ f ∈ s.preconditions, f ∈ state) ∧
        runFrom (index + 1) (state.after s) rest = .ok last := by
  rw [runFrom, applyEntry]
  split
  · rename_i next hnext
    obtain ⟨hpre, rfl⟩ := apply_eq_ok_iff.1 hnext
    exact (and_iff_right hpre).symm
  · rename_i cause hcause
    refine ⟨nofun, fun h => ?_⟩
    rw [apply_eq_ok_iff.2 ⟨h.1, rfl⟩] at hcause
    cases hcause

/-- Run a plan from the state of the given facts. -/
def run (initial : List Fact) (plan : List PlanEntry) : Except RunError State :=
  runFrom 0 (ofList initial) plan

/-- Whether a plan runs and makes all goals true. -/
def achieves (initial : List Fact) (plan : List PlanEntry) (goals : List Fact) : Bool :=
  match run initial plan with
  | .ok state => goals.all state.contains
  | .error _ => false

theorem achieves_iff {initial goals : List Fact} {plan : List PlanEntry} :
    achieves initial plan goals = true ↔
      ∃ last, run initial plan = .ok last ∧ ∀ f ∈ goals, f ∈ last := by
  rw [achieves]
  split
  · rename_i last hrun
    simp [hrun, List.all_eq_true]
  · rename_i hrun
    simp [hrun]

end State

end Strips
