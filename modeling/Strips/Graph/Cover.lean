/-!
# Covers

A cover of a list of facts is a list of steps that supports every fact of it and in which no two
steps exclude each other. Covers are built from left to right: each fact takes one of its supporting
steps, in their order, and a step that was taken for an earlier fact is used again.

The search for a plan looks at covers one by one and stops at the first that can be continued, and
what it learns from one cover it uses for the next. It comes from one cover to the next by a *walk*
that goes forward when a fact has got a step, and back to the fact before when all supporting steps
of a fact have been tried. `firstCover` is such a walk with the continuation as an argument and a
state that is handed from cover to cover. `covers` is the plain list of all covers.

Nothing here depends on what facts and steps are. A cover needs to know which steps support a fact,
which steps exclude each other, and when two steps are the same.

## Main definitions

* `covers` – all covers, in order.
* `CoverWalk`, `CoverWalk.turn` – a walk through the covers, turn by turn.
* `firstCover` – the first cover from which a continuation gives a result.

## Implementation notes

A walk remembers for each fact how many of its supporting steps were tried, and for each fact that
has a step whether this was a new one, which is given up on the way back. `CoverWalk.turnsLeft`
bounds the turns that a walk can still take, and each turn makes it smaller.
-/

namespace Strips

variable {φ σ β α : Type}

/-- The chosen steps with one more, unless it is among them. -/
def choose [BEq α] (chosen : List α) (s : α) : List α :=
  if chosen.contains s then chosen else chosen ++ [s]

/-- Whether a step excludes none of those that were chosen. -/
def admits (isMutex : α → α → Bool) (chosen : List α) (s : α) : Bool := !chosen.any (isMutex s)

/-- All covers of a list of facts that extend the chosen steps. -/
def covers [BEq α] (isMutex : α → α → Bool) (support : φ → List α) (chosen : List α) :
    List φ → List (List α)
  | [] => [chosen]
  | f :: rest =>
    ((support f).filter (admits isMutex chosen)).flatMap fun s =>
      covers isMutex support (choose chosen s) rest

/-! ### Walking through covers -/

/-- Where a walk through the covers of `n` facts stands. -/
structure CoverWalk (α : Type) (n : Nat) where
  /-- The number of facts that have a step. -/
  position : Nat := 0
  /-- The steps that were chosen. -/
  chosen : List α := []
  /-- For each fact that has a step, the last one first, whether the step was chosen for it. -/
  chosenFor : List Bool := []
  /-- For each fact the number of its supporting steps that were tried. -/
  tried : List Nat := List.replicate n 0
  length_tried : tried.length = n := by exact List.length_replicate

namespace CoverWalk

/-- The first step that is compatible with those that were chosen, and the number of steps that were
tried with it, if `tried` steps were tried before. -/
def firstFit (isMutex : α → α → Bool) (chosen : List α) : List α → Nat → Option (α × Nat)
  | [], _ => none
  | s :: rest, tried =>
    if admits isMutex chosen s then some (s, tried + 1)
    else firstFit isMutex chosen rest (tried + 1)

variable {n : Nat}

/-- The walk with another number of tried steps for the fact that is next. -/
def setTried (w : CoverWalk α n) (tried : Nat) : CoverWalk α n :=
  { w with
    tried := w.tried.set w.position tried
    length_tried := List.length_set.trans w.length_tried }

/-- Go forward with a step. -/
def forward [BEq α] (w : CoverWalk α n) (s : α) : CoverWalk α n :=
  { w with
    position := w.position + 1
    chosen := choose w.chosen s
    chosenFor := (!w.chosen.contains s) :: w.chosenFor }

/-- Go back to the fact before, whose step is given up if it was chosen for this fact. There is no
way back from the first fact. -/
def back (w : CoverWalk α n) : Option (CoverWalk α n) :=
  match w.position with
  | 0 => none
  | position + 1 => some { w with
      position
      chosen := if w.chosenFor.headD false then w.chosen.dropLast else w.chosen
      chosenFor := w.chosenFor.tail }

/-- One turn: the cover that it comes to, if all facts have a step, and the walk after it, unless it
is over. -/
def turn [BEq α] (isMutex : α → α → Bool) (support : φ → List α) (facts : List φ)
    (w : CoverWalk α facts.length) : Option (List α) × Option (CoverWalk α facts.length) :=
  match facts[w.position]? with
  | none => (some w.chosen, w.back)
  | some f =>
    let tried := w.tried.getD w.position 0
    match firstFit isMutex w.chosen ((support f).drop tried) tried with
    | some (s, tried) => (none, some ((w.setTried tried).forward s))
    | none => (none, (w.setTried 0).back)

/-! ### A walk ends -/

/-- The most turns of a walk from its first look at a list of facts until it goes back from them. -/
def turnsFor (support : φ → List α) : List φ → Nat
  | [] => 1
  | f :: rest => (support f).length * (turnsFor support rest + 1) + 1

/-- The most turns that are left. From each fact up to the next one the walk has to go back, and
each of its untried steps may lead to all facts behind it. -/
def turnsLeftAt (support : φ → List α) : List φ → List Nat → Nat → Nat
  | [], _, position => position + 1
  | f :: rest, tried, 0 =>
    ((support f).length - tried.headD 0) * (turnsFor support rest + 1) + 1
  | f :: rest, tried, position + 1 =>
    ((support f).length - tried.headD 0) * (turnsFor support rest + 1) + 1 +
      turnsLeftAt support rest tried.tail position

/-- The most turns that a walk can still take; none if it is over. -/
def turnsLeft (support : φ → List α) (facts : List φ) : Option (CoverWalk α facts.length) → Nat
  | none => 0
  | some w => turnsLeftAt support facts w.tried w.position

theorem turnsLeftAt_pos (support : φ → List α) : ∀ (facts : List φ) (tried : List Nat)
    (position : Nat), 0 < turnsLeftAt support facts tried position
  | [], _, _ => Nat.succ_pos _
  | _ :: _, _, 0 => Nat.succ_pos _
  | _ :: _, _, _ + 1 => Nat.add_pos_left (Nat.succ_pos _) _

/-- Arriving at a fact. -/
theorem turnsLeftAt_zero_le (support : φ → List α) (facts : List φ) (tried : List Nat) :
    turnsLeftAt support facts tried 0 ≤ turnsFor support facts := by
  cases facts with
  | nil => exact Nat.le_refl 1
  | cons f rest => exact Nat.succ_le_succ (Nat.mul_le_mul_right _ (Nat.sub_le ..))

/-- Going back. -/
theorem turnsLeftAt_lt_succ (support : φ → List α) : ∀ (facts : List φ) (tried : List Nat)
    (position : Nat), turnsLeftAt support facts tried position <
      turnsLeftAt support facts tried (position + 1)
  | [], _, _ => Nat.lt_succ_self _
  | _ :: rest, tried, 0 => Nat.lt_add_of_pos_right (turnsLeftAt_pos support rest tried.tail 0)
  | _ :: rest, tried, position + 1 =>
    Nat.add_lt_add_left (turnsLeftAt_lt_succ support rest tried.tail position) _

/-- Facts behind the next one do not count. -/
theorem turnsLeftAt_set (support : φ → List α) (c : Nat) : ∀ (facts : List φ) (tried : List Nat)
    (position : Nat), turnsLeftAt support facts (tried.set (position + 1) c) position =
      turnsLeftAt support facts tried position
  | [], _, _ => rfl
  | _ :: _, [], _ => rfl
  | _ :: _, _ :: _, 0 => rfl
  | _ :: rest, _ :: tried, position + 1 =>
    congrArg (_ + ·) (turnsLeftAt_set support c rest tried position)

/-- Going forward with a step that was not tried before. -/
theorem turnsLeftAt_set_succ_lt {support : φ → List α} {f : φ} {c c' : Nat} (hlt : c < c')
    (hle : c' ≤ (support f).length) : ∀ {facts : List φ} {tried : List Nat} {position : Nat},
      facts[position]? = some f → tried[position]? = some c →
      turnsLeftAt support facts (tried.set position c') (position + 1) <
        turnsLeftAt support facts tried position
  | g :: rest, d :: tried, 0, hf, hc => by
    obtain rfl := Option.some.inj hf
    obtain rfl := Option.some.inj hc
    have hle' := turnsLeftAt_zero_le support rest tried
    have hmul : ((support g).length - c' + 1) * (turnsFor support rest + 1) ≤
        ((support g).length - d) * (turnsFor support rest + 1) :=
      Nat.mul_le_mul_right _ (by omega)
    rw [Nat.succ_mul] at hmul
    change ((support g).length - c') * (turnsFor support rest + 1) + 1 +
        turnsLeftAt support rest tried 0 <
      ((support g).length - d) * (turnsFor support rest + 1) + 1
    omega
  | _ :: rest, _ :: tried, position + 1, hf, hc => by
    have hf' : rest[position]? = some f := hf
    have hc' : tried[position]? = some c := hc
    exact Nat.add_lt_add_left (turnsLeftAt_set_succ_lt hlt hle hf' hc') _

theorem lt_of_firstFit {isMutex : α → α → Bool} {chosen : List α} {s : α} {c c' : Nat} :
    ∀ {steps : List α}, firstFit isMutex chosen steps c = some (s, c') →
      c < c' ∧ c' ≤ c + steps.length := by
  intro steps
  induction steps generalizing c with
  | nil =>
    intro h
    cases h
  | cons t rest ih =>
    intro h
    rw [firstFit] at h
    rw [List.length_cons]
    split at h
    · cases h
      omega
    · have := ih h
      omega

theorem turnsLeft_back (support : φ → List α) (facts : List φ) (w : CoverWalk α facts.length) :
    turnsLeft support facts w.back < turnsLeft support facts (some w) := by
  obtain ⟨position, chosen, chosenFor, tried, length_tried⟩ := w
  cases position with
  | zero => exact turnsLeftAt_pos support facts tried 0
  | succ position => exact turnsLeftAt_lt_succ support facts tried position

theorem turnsLeft_back_setTried (support : φ → List α) (facts : List φ)
    (w : CoverWalk α facts.length) (c : Nat) :
    turnsLeft support facts (w.setTried c).back = turnsLeft support facts w.back := by
  obtain ⟨position, chosen, chosenFor, tried, length_tried⟩ := w
  cases position with
  | zero => rfl
  | succ position => exact turnsLeftAt_set support c facts tried position

/-- **Each turn leaves fewer turns.** -/
theorem turnsLeft_turn [BEq α] (isMutex : α → α → Bool) (support : φ → List α) (facts : List φ)
    (w : CoverWalk α facts.length) :
    turnsLeft support facts (w.turn isMutex support facts).2 <
      turnsLeft support facts (some w) := by
  rw [turn]
  cases hf : facts[w.position]? with
  | none => exact turnsLeft_back support facts w
  | some f =>
    have hposition : w.position < w.tried.length := by
      rw [w.length_tried]
      exact (List.getElem?_eq_some_iff.1 hf).1
    have htried : w.tried[w.position]? = some (w.tried.getD w.position 0) := by
      rw [List.getD_eq_getElem?_getD, List.getElem?_eq_getElem hposition]
      rfl
    dsimp only
    split
    · rename_i s c hfit
      obtain ⟨hlt, hle⟩ := lt_of_firstFit hfit
      rw [List.length_drop] at hle
      exact turnsLeftAt_set_succ_lt hlt (by omega) hf htried
    · rw [turnsLeft_back_setTried]
      exact turnsLeft_back support facts w

/-- The turns of a walk, up to the first cover from which `onward` gives a result. -/
def visit [BEq α] (isMutex : α → α → Bool) (support : φ → List α) (facts : List φ)
    (onward : List α → σ → Option β × σ) :
    Option (CoverWalk α facts.length) → σ → Option β × σ
  | none, state => (none, state)
  | some w, state =>
    let turned := w.turn isMutex support facts
    match turned.1 with
    | none => visit isMutex support facts onward turned.2 state
    | some cover =>
      match onward cover state with
      | (some result, state) => (some result, state)
      | (none, state) => visit isMutex support facts onward turned.2 state
termination_by w => turnsLeft support facts w
decreasing_by all_goals exact turnsLeft_turn isMutex support facts w

end CoverWalk

/-- Visit the covers of a list of facts, in order, up to the first from which `onward` gives a
result. -/
def firstCover [BEq α] (isMutex : α → α → Bool) (support : φ → List α)
    (onward : List α → σ → Option β × σ) (facts : List φ) (state : σ) : Option β × σ :=
  CoverWalk.visit isMutex support facts onward (some {}) state

end Strips
