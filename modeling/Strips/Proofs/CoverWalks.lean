import Strips.Graph.Cover

/-!
# Walks come to all covers

A walk through covers goes forward and back over the facts by numbers and marks that it keeps by
hand. The covers that it comes to are nevertheless those of the plain recursion, in the same order,
each as often as there, and then the walk is over.

A walk that arrives at a fact comes to all covers that extend what was chosen so far before it goes
back, and when it goes back everything is as it was on arrival. So the run of turns from one arrival
to the way back follows the recursion of `covers`: the induction is on the facts that are left, and
for one fact on the supporting steps that were not tried yet.

## Main definitions

* `firstOutcome` – trying things one after the other.
* `CoverWalk.turns` – the covers that a number of turns come to.

## Main results

* `CoverWalk.exists_turns_eq` – from an arrival to the way back.
* `CoverWalk.comes_to_covers` – a whole walk.
* `firstCover_eq` – visiting covers is trying those of the list, one after the other.
-/

namespace Strips

/-- The outcome of the first thing from which `attempt` gives a result, and the last state. -/
def firstOutcome {α β σ : Type} (attempt : α → σ → Option β × σ) : List α → σ → Option β × σ
  | [], state => (none, state)
  | x :: rest, state =>
    match attempt x state with
    | (some result, state) => (some result, state)
    | (none, state) => firstOutcome attempt rest state

variable {φ α σ β : Type} [BEq α] {isMutex : α → α → Bool} {support : φ → List α} {facts : List φ}

theorem drop_succ_of_drop {γ : Type} {l rest : List γ} {x : γ} {n : Nat}
    (h : l.drop n = x :: rest) : l.drop (n + 1) = rest := by
  rw [← List.drop_drop, h]
  rfl

theorem dropLast_choose (chosen : List α) (s : α) :
    (if !chosen.contains s then (choose chosen s).dropLast else choose chosen s) = chosen := by
  rw [choose]
  cases chosen.contains s with
  | true => rfl
  | false => exact List.dropLast_concat

namespace CoverWalk

/-! ### A number of turns -/

/-- The covers that some turns come to, and the walk after them, unless it is over. -/
def turns (isMutex : α → α → Bool) (support : φ → List α) (facts : List φ) :
    Nat → Option (CoverWalk α facts.length) →
      List (List α) × Option (CoverWalk α facts.length)
  | 0, w => ([], w)
  | _ + 1, none => ([], none)
  | n + 1, some w =>
    let turned := w.turn isMutex support facts
    let later := turns isMutex support facts n turned.2
    (turned.1.toList ++ later.1, later.2)

theorem turns_none (n : Nat) : turns isMutex support facts n none = ([], none) := by
  cases n <;> rfl

theorem turns_succ_some (n : Nat) (w : CoverWalk α facts.length) :
    turns isMutex support facts (n + 1) (some w) =
      ((w.turn isMutex support facts).1.toList ++
          (turns isMutex support facts n (w.turn isMutex support facts).2).1,
        (turns isMutex support facts n (w.turn isMutex support facts).2).2) := rfl

theorem turns_add (m n : Nat) : ∀ w : Option (CoverWalk α facts.length),
    turns isMutex support facts (m + n) w =
      ((turns isMutex support facts m w).1 ++
          (turns isMutex support facts n (turns isMutex support facts m w).2).1,
        (turns isMutex support facts n (turns isMutex support facts m w).2).2) := by
  induction m with
  | zero =>
    intro w
    rw [Nat.zero_add]
    rfl
  | succ m ih =>
    intro w
    cases w with
    | none => simp only [turns_none, List.append_nil]
    | some w => rw [Nat.succ_add, turns_succ_some, turns_succ_some, ih, List.append_assoc]

/-- Visiting goes on after some turns if none of the covers that they come to gives a result. -/
theorem visit_eq (onward : List α → σ → Option β × σ) (n : Nat) :
    ∀ (w : Option (CoverWalk α facts.length)) (state : σ),
      visit isMutex support facts onward w state =
        match firstOutcome onward (turns isMutex support facts n w).1 state with
        | (some result, state) => (some result, state)
        | (none, state) =>
          visit isMutex support facts onward (turns isMutex support facts n w).2 state := by
  induction n with
  | zero => exact fun _ _ => rfl
  | succ n ih =>
    intro w state
    cases w with
    | none => rw [turns_none, firstOutcome]
    | some w =>
      rw [visit, turns_succ_some]
      cases (w.turn isMutex support facts).1 with
      | none => exact ih _ state
      | some cover =>
        dsimp only [Option.toList]
        rw [List.cons_append, firstOutcome]
        rcases onward cover state with ⟨_ | result, state⟩
        · exact ih _ state
        · rfl

/-! ### Forward and back -/

variable {w : CoverWalk α facts.length} {f : φ} {rest : List φ}

omit [BEq α] in
theorem setTried_setTried (c c' : Nat) : (w.setTried c).setTried c' = w.setTried c' := by
  simp only [setTried, List.set_set]

omit [BEq α] in
/-- Nothing is set anew. -/
theorem setTried_self (h : w.tried.getD w.position 0 = 0) : w.setTried 0 = w := by
  obtain ⟨position, chosen, chosenFor, tried, length_tried⟩ := w
  have hset : tried.set position 0 = tried := by
    refine List.ext_getElem? fun i => ?_
    rw [List.getElem?_set]
    split
    · rename_i hi
      subst hi
      split
      · rename_i hlt
        rw [List.getElem?_eq_getElem hlt]
        rw [List.getD_eq_getElem?_getD, List.getElem?_eq_getElem hlt] at h
        exact congrArg some h.symm
      · rename_i hlt
        exact (List.getElem?_eq_none (Nat.not_lt.1 hlt)).symm
    · rfl
  simp only [setTried, hset]

/-- After a step forward the way back leads to where the walk stood before. -/
theorem back_forward (w : CoverWalk α facts.length) (s : α) : (w.forward s).back = some w := by
  change some { w with
    chosen := if !w.chosen.contains s then (choose w.chosen s).dropLast else choose w.chosen s } = _
  rw [dropLast_choose]

omit [BEq α] in
theorem getD_setTried_self (hf : facts.drop w.position = f :: rest) (c : Nat) :
    (w.setTried c).tried.getD w.position 0 = c := by
  have hlt : w.position < w.tried.length := by
    rw [w.length_tried]
    refine Nat.lt_of_not_le fun hle => ?_
    rw [List.drop_eq_nil_of_le hle] at hf
    cases hf
  simp [setTried, hlt]

omit [BEq α] in
theorem getD_setTried_of_lt {i : Nat} (hi : w.position < i) (c : Nat) :
    (w.setTried c).tried.getD i 0 = w.tried.getD i 0 := by
  simp [setTried, Nat.ne_of_lt hi]

/-! ### Turns at one fact -/

section Turn

variable (hf : facts.drop w.position = f :: rest) {c : Nat}
  (hc : w.tried.getD w.position 0 = c)

include hf hc

/-- A turn at a fact of which the steps that were not tried hold one that fits. -/
theorem turn_of_some {s : α} {c' : Nat}
    (h : firstFit isMutex w.chosen ((support f).drop c) c = some (s, c')) :
    w.turn isMutex support facts = (none, some ((w.setTried c').forward s)) := by
  have hget : facts[w.position]? = some f := by rw [← List.head?_drop, hf, List.head?_cons]
  simp only [turn, hget, hc, h]

/-- A turn at a fact of which no other step fits. -/
theorem turn_of_none (h : firstFit isMutex w.chosen ((support f).drop c) c = none) :
    w.turn isMutex support facts = (none, (w.setTried 0).back) := by
  have hget : facts[w.position]? = some f := by rw [← List.head?_drop, hf, List.head?_cons]
  simp only [turn, hget, hc, h]

/-- A turn at a fact of which the next step does not fit is a turn after that step. -/
theorem turn_setTried_succ {s : α} {steps : List α} (hsteps : (support f).drop c = s :: steps)
    (hs : ¬ admits isMutex w.chosen s = true) :
    (w.setTried (c + 1)).turn isMutex support facts = w.turn isMutex support facts := by
  have hf' : facts.drop (w.setTried (c + 1)).position = f :: rest := hf
  have hc' := getD_setTried_self hf (c + 1)
  have hskip : firstFit isMutex w.chosen ((support f).drop (c + 1)) (c + 1) =
      firstFit isMutex w.chosen ((support f).drop c) c := by
    rw [drop_succ_of_drop hsteps, hsteps, firstFit, if_neg hs]
  cases hfit : firstFit isMutex w.chosen ((support f).drop c) c with
  | none =>
    rw [turn_of_none hf hc hfit, turn_of_none hf' hc' (hskip.trans hfit), setTried_setTried]
  | some fit =>
    rw [turn_of_some hf hc hfit, turn_of_some hf' hc' (hskip.trans hfit), setTried_setTried]

end Turn

/-- **The turns at one fact** come to the covers behind each step that was not tried and fits. -/
theorem exists_turns_at (hrest : ∀ w : CoverWalk α facts.length, facts.drop w.position = rest →
      (∀ i, w.position ≤ i → w.tried.getD i 0 = 0) →
      ∃ n, turns isMutex support facts (n + 1) (some w) =
        (covers isMutex support w.chosen rest, w.back)) :
    ∀ (steps : List α) {w : CoverWalk α facts.length}, facts.drop w.position = f :: rest →
      (∀ i, w.position < i → w.tried.getD i 0 = 0) →
      (support f).drop (w.tried.getD w.position 0) = steps →
      ∃ n, turns isMutex support facts (n + 1) (some w) =
        ((steps.filter (admits isMutex w.chosen)).flatMap
          fun s => covers isMutex support (choose w.chosen s) rest, (w.setTried 0).back)
  | [], w, hf, _, hsteps => by
    refine ⟨0, ?_⟩
    rw [turns_succ_some, turn_of_none hf rfl (by rw [hsteps]; rfl)]
    rfl
  | s :: steps, w, hf, huntried, hsteps => by
    obtain ⟨tried, htried⟩ : ∃ c, w.tried.getD w.position 0 = c := ⟨_, rfl⟩
    rw [htried] at hsteps
    have hself : (w.setTried (tried + 1)).tried.getD w.position 0 = tried + 1 :=
      getD_setTried_self hf _
    have huntried' : ∀ i, w.position < i → (w.setTried (tried + 1)).tried.getD i 0 = 0 :=
      fun i hi => (getD_setTried_of_lt hi _).trans (huntried i hi)
    have hsteps' : (support f).drop ((w.setTried (tried + 1)).tried.getD w.position 0) = steps := by
      rw [hself]
      exact drop_succ_of_drop hsteps
    obtain ⟨n, hn⟩ := exists_turns_at hrest steps (w := w.setTried (tried + 1)) hf huntried' hsteps'
    rw [setTried_setTried] at hn
    by_cases hs : admits isMutex w.chosen s = true
    · -- forward, all covers behind the step, back, and on with the next step
      have hturn : w.turn isMutex support facts =
          (none, some ((w.setTried (tried + 1)).forward s)) :=
        turn_of_some hf htried (by rw [hsteps, firstFit, if_pos hs])
      obtain ⟨m, hm⟩ := hrest ((w.setTried (tried + 1)).forward s) (drop_succ_of_drop hf) huntried'
      refine ⟨m + 1 + (n + 1), ?_⟩
      rw [turns_succ_some, hturn, turns_add, hm, back_forward, hn, List.filter_cons, if_pos hs]
      rfl
    · refine ⟨n, ?_⟩
      rw [turns_succ_some, turn_setTried_succ hf htried hsteps hs, ← turns_succ_some] at hn
      rw [List.filter_cons, if_neg hs]
      exact hn

/-- **From an arrival to the way back** a walk comes to all covers that extend what was chosen. -/
theorem exists_turns_eq : ∀ (rest : List φ) (w : CoverWalk α facts.length),
    facts.drop w.position = rest → (∀ i, w.position ≤ i → w.tried.getD i 0 = 0) →
      ∃ n, turns isMutex support facts (n + 1) (some w) =
        (covers isMutex support w.chosen rest, w.back)
  | [], w, hf, _ => by
    have hget : facts[w.position]? = none := by
      rw [← List.head?_drop, hf]
      rfl
    refine ⟨0, ?_⟩
    rw [turns_succ_some, turn, hget]
    rfl
  | f :: rest, w, hf, huntried => by
    have hself := huntried w.position (Nat.le_refl _)
    obtain ⟨n, hn⟩ := exists_turns_at (exists_turns_eq rest) (support f) hf
      (fun i hi => huntried i (Nat.le_of_lt hi)) (by rw [hself, List.drop_zero])
    rw [setTried_self hself] at hn
    exact ⟨n, hn⟩

/-- A walk from the first fact comes to all covers and is over. -/
theorem exists_turns_start (isMutex : α → α → Bool) (support : φ → List α) (facts : List φ) :
    ∃ n, turns isMutex support facts n (some {}) = (covers isMutex support [] facts, none) := by
  have huntried : ∀ i, 0 ≤ i → (List.replicate facts.length 0).getD i 0 = 0 := by
    intro i _
    rw [List.getD_eq_getElem?_getD, List.getElem?_replicate]
    split <;> rfl
  obtain ⟨n, hn⟩ : ∃ n, turns isMutex support facts (n + 1) (some {}) = _ :=
    exists_turns_eq facts {} rfl huntried
  exact ⟨n + 1, hn⟩

end CoverWalk

/-- Visiting is trying the covers of the list one after the other. -/
theorem firstCover_eq (isMutex : α → α → Bool) (support : φ → List α)
    (onward : List α → σ → Option β × σ) (facts : List φ) (state : σ) :
    firstCover isMutex support onward facts state =
      firstOutcome onward (covers isMutex support [] facts) state := by
  obtain ⟨n, hn⟩ := CoverWalk.exists_turns_start isMutex support facts
  rw [firstCover, CoverWalk.visit_eq onward n, hn]
  rcases firstOutcome onward (covers isMutex support [] facts) state with ⟨_ | result, state⟩
  · dsimp only
    rw [CoverWalk.visit]
  · rfl

/-- **A walk comes to all covers.** It comes to an end after a number of turns, and those that it
has come to are the covers of the plain recursion, in the same order and each as often as there.
Whatever is done at each cover, visiting them up to a first result is trying the covers of the plain
recursion one after the other. -/
theorem CoverWalk.comes_to_covers (isMutex : α → α → Bool) (support : φ → List α)
    (facts : List φ) :
    (∃ n, turns isMutex support facts n (some {}) = (covers isMutex support [] facts, none)) ∧
      ∀ (onward : List α → σ → Option β × σ) (state : σ),
        firstCover isMutex support onward facts state =
          firstOutcome onward (covers isMutex support [] facts) state :=
  ⟨exists_turns_start isMutex support facts,
    fun onward => firstCover_eq isMutex support onward facts⟩

end Strips
