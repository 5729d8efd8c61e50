import Strips.Proofs.Unifying

/-!
# Unifying a literal with a fact

Whether a literal can be unified with a ground one can be told from the arena before it, whatever
the order of the terms is: what has a value has the one that it faces, the cells of one class face
one value, and no class that gets a value is distinct from one that has it in the end. If so, the
open classes get the values that they face, and else the attempt leaves no trace.

A literal that is not ground is noticed at its first term without a value, and what was bound before
this term keeps its value.

## Main definitions

* `Arena.valuesFacing` – the values after the open classes have got those that they face.
* `Arena.Unifiable`, `Literal.CanSay` – terms can get the values that they face.
* `Arena.Reachable` – an arena that calls can make.

## Main results

* `Arena.Unifying.accepts_of_unifiable`, `Arena.Unifying.unifiable` – the loop comes to its end if
  the terms can get the values that they face, and only then.
* `Literal.unify_exact` – unifying with a ground literal.
* `Literal.unify_failure` – what is left of an attempt that fails.
-/

namespace Strips

namespace Arena

/-! ### Values that cells face -/

/-- The value that a class faces: the one of the first term that stands against a cell of it. -/
def faced (a : Arena) (pairs : List (Term × Term)) (k : Nat) : Option String :=
  pairs.findSome? fun p =>
    match p.1 with
    | .const _ => none
    | .cell i => if a.root i = a.root k then p.2.value? a else none

/-- The values after the open classes have got those that they face. -/
def valuesFacing (a : Arena) (pairs : List (Term × Term)) (k : Nat) : Option String :=
  (a.value? k).or (a.faced pairs k)

/-- The cells of one class face one value. -/
def FacesAlike (a : Arena) (pairs : List (Term × Term)) : Prop :=
  ∀ i j s t, (.cell i, s) ∈ pairs → (.cell j, t) ∈ pairs → a.root i = a.root j →
    s.value? a = t.value? a

/-- The terms on the left can get the values of those on the right: what has a value has the one
that it faces, cells of one class face one value, and no class that gets a value is distinct from
one that has it in the end. -/
structure Unifiable (a : Arena) (pairs : List (Term × Term)) : Prop where
  bound : ∀ p ∈ pairs, ∀ v, p.1.value? a = some v → p.2.value? a = some v
  alike : a.FacesAlike pairs
  distinct : ∀ i s, (.cell i, s) ∈ pairs → a.value? i = none →
    ∀ j ∈ a.members i, ∀ k ∈ a.partners j, a.valuesFacing pairs k ≠ s.value? a

section Faced

variable {a : Arena} {pairs : List (Term × Term)} {k : Nat}

/-- A class faces the value that all its cells face. -/
theorem faced_eq_some {i : Nat} {s : Term} {v : String} (hmem : (.cell i, s) ∈ pairs)
    (hroot : a.root i = a.root k) (hall : ∀ j t, (.cell j, t) ∈ pairs → a.root j = a.root k →
      t.value? a = some v) : a.faced pairs k = some v := by
  have hsome : (a.faced pairs k).isSome = true := by
    refine List.findSome?_isSome_iff.2 ⟨_, hmem, ?_⟩
    simp [hroot, hall i s hmem hroot]
  obtain ⟨w, hw⟩ := Option.isSome_iff_exists.1 hsome
  obtain ⟨⟨t, u⟩, hp, hv⟩ := List.exists_of_findSome?_eq_some hw
  cases t with
  | const _ => cases hv
  | cell j =>
    dsimp only at hv
    split at hv
    · rename_i hj
      rw [hw, ← hv, hall j u hp hj]
    · cases hv

theorem faced_eq_none (h : ∀ i s, (.cell i, s) ∈ pairs → a.root i ≠ a.root k) :
    a.faced pairs k = none := by
  refine List.findSome?_eq_none_iff.2 ?_
  rintro ⟨t, s⟩ hp
  cases t with
  | const _ => rfl
  | cell i => exact if_neg (h i s hp)

theorem valuesFacing_of_some {v : String} (hv : a.value? k = some v) :
    a.valuesFacing pairs k = some v := by
  rw [valuesFacing, hv]
  rfl

theorem valuesFacing_of_none (hv : a.value? k = none) :
    a.valuesFacing pairs k = a.faced pairs k := by
  rw [valuesFacing, hv]
  rfl

/-- A cell has the value that it faces in the end. -/
theorem Unifiable.valuesFacing_eq_some (h : a.Unifiable pairs) {i : Nat} {s : Term} {v : String}
    (hmem : (.cell i, s) ∈ pairs) (hs : s.value? a = some v) : a.valuesFacing pairs i = some v := by
  cases hi : a.value? i with
  | some w => rw [valuesFacing_of_some hi, ← h.bound _ hmem w hi, hs]
  | none =>
    rw [valuesFacing_of_none hi]
    exact faced_eq_some hmem rfl fun j t hjt hji => by
      rw [← h.alike i j s t hmem hjt hji.symm, hs]

end Faced

/-! ### Ground terms -/

namespace Unifying

section

variable {a b : Arena} {done : List (Term × Term)} {bound : List Nat}
  (h : a.Unifying done bound b)

include h

variable {pairs : List (Term × Term)} (hsub : ∀ p ∈ done, p ∈ pairs)
  (hground : ∀ p ∈ pairs, (p.2.value? a).isSome = true)

include hground

/-- What a ground term says does not change. -/
theorem value?_ground {p : Term × Term} (hp : p ∈ pairs) : p.2.value? b = p.2.value? a := by
  obtain ⟨v, hv⟩ := Option.isSome_iff_exists.1 (hground p hp)
  rw [hv, h.term_value?_of_some hv]

include hsub

/-- The values that classes have are those that they have in the end, if cells of one class face one
value. -/
theorem valuesFacing_eq_some {k : Nat} {v : String} (halike : a.FacesAlike pairs)
    (hv : b.value? k = some v) : a.valuesFacing pairs k = some v := by
  cases hk : a.value? k with
  | some w => rw [valuesFacing_of_some hk, ← h.value?_of_some hk, hv]
  | none =>
    obtain ⟨i, -, hki, s, hs, hsv⟩ := h.exists_done_of_new hk hv
    rw [valuesFacing_of_none hk]
    refine faced_eq_some (hsub _ hs) hki.symm fun j t hjt hjk => ?_
    rw [← halike i j s t (hsub _ hs) hjt (hki.symm.trans hjk.symm),
      ← h.value?_ground hground (hsub _ hs)]
    exact hsv

/-- Terms that can get the values that they face do not stop the loop. -/
theorem accepts_of_unifiable (hu : a.Unifiable pairs) {t s : Term} {v : String}
    (hmem : (t, s) ∈ pairs) (hs : s.value? b = some v) : t.accepts b v = true := by
  have hs' : s.value? a = some v := (h.value?_ground hground hmem).symm.trans hs
  have hvalues : ∀ {k w}, b.value? k = some w → a.valuesFacing pairs k = some w :=
    fun hw => h.valuesFacing_eq_some hsub hground hu.alike hw
  cases t with
  | const w =>
    have hw := hu.bound _ hmem w rfl
    exact beq_iff_eq.2 (Option.some.inj (hw.symm.trans hs'))
  | cell i =>
    cases hi : b.value? i with
    | some w =>
      refine (accepts_of_some hi).2 (Option.some.inj ?_)
      rw [← hvalues hi, hu.valuesFacing_eq_some hmem hs']
    | none =>
      refine (accepts_iff_of_none hi).2 fun j hj k hk hv => ?_
      rw [h.same.same.members] at hj
      rw [h.same.partners] at hk
      exact hu.distinct i s hmem (h.value?_eq_none hi) j hj k hk ((hvalues hv).trans hs'.symm)

end

variable {a b : Arena} {pairs : List (Term × Term)} {bound : List Nat}
  (h : a.Unifying pairs bound b) (hground : ∀ p ∈ pairs, (p.2.value? a).isSome = true)

include h hground

/-- At the end the classes have the values that they faced. -/
theorem value?_eq (halike : a.FacesAlike pairs) : b.value? = a.valuesFacing pairs := by
  funext k
  cases hk : b.value? k with
  | some v => exact (h.valuesFacing_eq_some (fun _ => id) hground halike hk).symm
  | none =>
    rw [valuesFacing_of_none (h.value?_eq_none hk), faced_eq_none fun i s hs hik => ?_]
    obtain ⟨v, hv, -⟩ := h.exists_value? hs
    rw [h.value?_congr hik, hk] at hv
    cases hv

/-- A loop that comes to its end had terms that can get the values that they face. -/
theorem unifiable : a.Unifiable pairs := by
  have hagreed : ∀ p ∈ pairs, p.1.value? b = p.2.value? a := by
    intro p hp
    obtain ⟨v, hv, hv'⟩ := h.agreed p hp
    rw [hv, ← hv', h.value?_ground hground hp]
  have halike : a.FacesAlike pairs := by
    intro i j s t hs ht hij
    rw [← hagreed _ hs, ← hagreed _ ht]
    exact h.value?_congr hij
  refine ⟨fun p hp v hv => ?_, halike, fun i s hs hnone j hj k hk => ?_⟩
  · rw [← hagreed p hp, h.term_value?_of_some hv]
  · obtain ⟨v, hv, -⟩ := h.exists_value? hs
    obtain ⟨m, hm, him, -⟩ := h.exists_done_of_new hnone hv
    have hapart := h.apart m hm j
      (h.sound.members_eq_of_root (h.was_open m hm).1 him.symm ▸ hj) k hk
    rw [← h.value?_congr him] at hapart
    rwa [← h.value?_eq hground halike, ← hagreed _ hs]

end Unifying

/-- An arena that calls can make of the empty one. -/
def Reachable (a : Arena) : Prop :=
  ∃ calls, Call.Valid 0 calls ∧ (Call.run call empty calls).2 = a

theorem Reachable.sound {a : Arena} (h : a.Reachable) : a.Sound := by
  obtain ⟨calls, hvalid, rfl⟩ := h
  exact (Partition.shows_empty.run hvalid).2.sound

end Arena

namespace Literal

/-! ### Ground literals -/

/-- A literal can come to say what a ground literal says. -/
def CanSay (a : Arena) (l fact : Literal) : Prop :=
  l.name = fact.name ∧ l.arity = fact.arity ∧ a.Unifiable (l.terms.zip fact.terms)

/-- What unifying with a ground literal comes to. If the literal can come to say the same, the open
classes of its cells get the values that they face, no other ones change, and clearing the cells
that are reported takes that back. Else no value changes. -/
def UnifiesExactly (a : Arena) (l fact : Literal) : Match × Arena → Prop
  | (.matched bound, b) =>
    CanSay a l fact ∧ a.Revalued (a.valuesFacing (l.terms.zip fact.terms)) b ∧
      (∀ k < a.size, a.value? k = none →
        ((b.value? k).isSome = true ↔ ∃ i, .cell i ∈ l.terms ∧ a.root i = a.root k)) ∧
      a.Revalued a.value? (bound.foldl Arena.clear b)
  | (.failed, b) => ¬CanSay a l fact ∧ a.Revalued a.value? b
  | (.notGround _, _) => False

/-- **Unifying with a ground literal is exact.** -/
theorem unify_exact {a : Arena} (ha : a.Reachable) {l fact : Literal} (hl : a.Holds l.terms)
    (hground : fact.isGround a = true) : UnifiesExactly a l fact (l.unify a fact) := by
  have hpairs : ∀ p ∈ l.terms.zip fact.terms, (p.2.value? a).isSome = true :=
    fun p hp => List.all_eq_true.1 hground _ (List.of_mem_zip hp).2
  rcases unify_cases ha.sound hl fact with ⟨hname, harity, hends⟩ | ⟨hna, hfailed⟩
  · generalize l.unify a fact = outcome at hends ⊢
    cases hends with
    | matched h =>
      have hu := h.unifiable hpairs
      rw [UnifiesExactly]
      refine ⟨⟨hname, harity, hu⟩, h.value?_eq hpairs hu.alike ▸ h.same, fun k _ hk => ?_, h.undo⟩
      rw [h.isSome_value?_iff hk, List.map_fst_zip (Nat.le_of_eq harity)]
    | @failed done more t s v bound b c hsplit h hs hclash hc =>
      rw [UnifiesExactly]
      refine ⟨fun hcan => ?_, hc⟩
      have hmem : (t, s) ∈ l.terms.zip fact.terms := by simp [hsplit]
      have hdone : ∀ p ∈ done, p ∈ l.terms.zip fact.terms := fun p hp => by simp [hsplit, hp]
      rw [h.accepts_of_unifiable hdone hpairs hcan.2.2 hmem hs] at hclash
      cases hclash
    | @notGround done more t s bound b text hsplit h hs _ =>
      have hmem : (t, s) ∈ l.terms.zip fact.terms := by simp [hsplit]
      have hsome := hpairs _ hmem
      rw [← h.value?_ground hpairs hmem, hs] at hsome
      cases hsome
  · rw [hfailed]
    exact ⟨fun hcan => hna ⟨hcan.1, hcan.2.1⟩, .refl ha.sound⟩

/-- A crossing with two linked cells, a cell that is distinct from them, and a constant. -/
def crossing : Arena :=
  (Arena.Call.run Arena.call .empty [.newCell none 0, .newCell none 0, .newCell none 0,
    .newCell (some "b") 1, .link 0 1, .markDistinct 1 2]).2

/-- There and back again, over the cells of the crossing. -/
def trip : Literal := ⟨"trip", [.cell 0, .cell 2, .cell 1]⟩

/-- A trip that leaves and comes home. -/
def outing : Literal := ⟨"trip", [.const "a", .cell 3, .const "a"]⟩

/-- A trip that stays at home. -/
def idling : Literal := ⟨"trip", [.const "a", .const "a", .const "a"]⟩

/-- The linked cells can both be `a`, but what is distinct from them cannot. -/
theorem unify_exact_crossing :
    crossing.Reachable ∧ crossing.Holds trip.terms ∧ outing.isGround crossing = true ∧
      idling.isGround crossing = true ∧ (trip.unify crossing outing).1 = .matched [0, 2] ∧
      CanSay crossing trip outing ∧ ¬CanSay crossing trip idling := by
  have ha : crossing.Reachable := ⟨_, by decide, rfl⟩
  have hl : crossing.Holds trip.terms := by
    intro i hi
    obtain rfl | rfl | rfl : i = 0 ∨ i = 2 ∨ i = 1 := by simpa [trip] using hi
    all_goals decide +kernel
  have houting : outing.isGround crossing = true := by decide +kernel
  have hidling : idling.isGround crossing = true := by decide +kernel
  have hmatched := unify_exact ha hl houting
  have hfailed := unify_exact ha hl hidling
  have hyes : trip.unify crossing outing = (.matched [0, 2], (trip.unify crossing outing).2) :=
    Prod.ext (by decide +kernel) rfl
  have hno : trip.unify crossing idling = (.failed, (trip.unify crossing idling).2) :=
    Prod.ext (by decide +kernel) rfl
  rw [hyes] at hmatched
  rw [hno] at hfailed
  exact ⟨ha, hl, houting, hidling, congrArg Prod.fst hyes, hmatched.1, hfailed.1⟩

/-! ### Open literals -/

/-- The literal without all but the first terms. -/
def take (k : Nat) (l : Literal) : Literal := ⟨l.name, l.terms.take k⟩

/-- What is left of an attempt that does not succeed. If the literals do not fit, no value changes.
A term of `target` without a value, however, leaves what was bound before it: the arena is the one
in which the terms before it are unified, no value has changed only if nothing was bound, and the
cells that were bound are not reported, though clearing them would take everything back. -/
def LeavesBehind (a : Arena) (l target : Literal) : Match × Arena → Prop
  | (.matched _, _) => True
  | (.failed, b) => a.Revalued a.value? b
  | (.notGround _, b) =>
    ∃ k bound s, (l.take k).unify a (target.take k) = (.matched bound, b) ∧
      target.terms[k]? = some s ∧ s.value? b = none ∧ a.Revalued b.value? b ∧
      (b.value? = a.value? ↔ bound = []) ∧ a.Revalued a.value? (bound.foldl Arena.clear b)

/-- **What is left of an attempt that fails.** -/
theorem unify_failure {a : Arena} (ha : a.Reachable) {l : Literal} (hl : a.Holds l.terms)
    (target : Literal) : LeavesBehind a l target (l.unify a target) := by
  rcases unify_cases ha.sound hl target with ⟨hname, harity, hends⟩ | ⟨-, hfailed⟩
  · generalize l.unify a target = outcome at hends ⊢
    cases hends with
    | matched h => trivial
    | failed _ _ _ _ hc => exact hc
    | @notGround done more t s bound b text hsplit h hs hrun =>
      have hat : (l.terms.zip target.terms)[done.length]? = some (t, s) := by simp [hsplit]
      have hcut : (l.terms.take done.length).zip (target.terms.take done.length) = done := by
        rw [List.zip, ← List.take_zipWith, ← List.zip, hsplit, List.take_left]
      have harity' : (l.take done.length).arity = (target.take done.length).arity := by
        rw [arity, arity, take, take, List.length_take, List.length_take]
        exact congrArg _ harity
      refine ⟨done.length, bound.reverse, s, ?_, (List.getElem?_zip_eq_some.1 hat).2, hs, h.same,
        h.value?_eq_iff.trans List.reverse_eq_nil_iff.symm, h.undo⟩
      rw [unify, if_pos (by rw [harity']; simp [take, hname])]
      exact (congrArg _ hcut).trans (hrun _)
  · rw [hfailed]
    exact .refl ha.sound

/-- Two open cells, and in another scope a constant and a third open cell. -/
def platform : Arena :=
  (Arena.Call.run Arena.call .empty
    [.newCell none 0, .newCell none 0, .newCell (some "a") 1, .newCell none 1]).2

/-- The first two cells of the platform. -/
def waiting : Literal := ⟨"at", [.cell 0, .cell 1]⟩

/-- The other two cells of the platform, of which only the first has a value. -/
def boarding : Literal := ⟨"at", [.cell 2, .cell 3]⟩

theorem reachable_platform : platform.Reachable := ⟨_, by decide, rfl⟩

theorem holds_waiting : platform.Holds waiting.terms := by
  intro i hi
  obtain rfl | rfl : i = 0 ∨ i = 1 := by simpa [waiting] using hi
  all_goals decide +kernel

/-- Unifying stops at the second cell, when the first one has its value. -/
theorem unify_failure_platform :
    platform.Reachable ∧ platform.Holds waiting.terms ∧
      (waiting.unify platform boarding).1 = .notGround "at(a,$unbound)" ∧
      ∃ k bound, (waiting.take k).unify platform (boarding.take k) =
        (.matched bound, (waiting.unify platform boarding).2) ∧ bound ≠ [] := by
  have hstop : waiting.unify platform boarding =
      (.notGround "at(a,$unbound)", (waiting.unify platform boarding).2) :=
    Prod.ext (by decide +kernel) rfl
  have hfailure := unify_failure reachable_platform holds_waiting boarding
  rw [hstop] at hfailure
  obtain ⟨k, bound, _, hrun, -, -, -, hnothing, -⟩ := hfailure
  refine ⟨reachable_platform, holds_waiting, congrArg Prod.fst hstop, k, bound, hrun,
    fun hempty => ?_⟩
  have hkept := congrFun (hnothing.2 hempty) 0
  exact absurd hkept (by decide +kernel)

/-- An attempt that does not succeed may leave values behind. -/
theorem not_unify_atomic :
    ¬∀ (a : Arena) (l target : Literal), a.Reachable → a.Holds l.terms →
      (∀ bound, (l.unify a target).1 ≠ .matched bound) →
      ∀ i < a.size, (l.unify a target).2.value? i = a.value? i := by
  intro hatomic
  have hstop : (waiting.unify platform boarding).1 = .notGround "at(a,$unbound)" := by
    decide +kernel
  have hkept := hatomic platform waiting boarding reachable_platform holds_waiting
    (fun bound h => by rw [hstop] at h; cases h) 0 (by decide +kernel)
  exact absurd hkept (by decide +kernel)

end Literal

end Strips
