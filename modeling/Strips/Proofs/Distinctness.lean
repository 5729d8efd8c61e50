import Strips.Proofs.Partition

/-!
# Distinct cells stay different

A mark stands on a cell and a value on a class, so a binding has to look at the partners of every
member of a class, and a link at every pair of members. Together they see to it that no two cells
that were marked distinct ever come to the same class or to the same value.

A mark itself looks at the classes only, so it may be made on two cells that have the same value
already. A call is *careful* if it is no such mark.

## Main definitions

* `Arena.Differs` – no two cells that were marked distinct have the same value.
* `Arena.Call.Careful`, `Arena.Call.AllCareful` – marks are made on cells without a common value.

## Main results

* `Arena.Sound.differs_call` – a careful call keeps distinct cells different.
* `Arena.distinct_stay_different` – a run of careful calls does.
-/

namespace Strips

/-- Whether a call is no mark on two cells with one value. -/
def Arena.Call.Careful (a : Arena) : Arena.Call → Prop
  | .markDistinct i j => a.value? i = none ∨ a.value? i ≠ a.value? j
  | _ => True

/-- Every call of a run is careful when it is made. -/
def Arena.Call.AllCareful : Arena → List Arena.Call → Prop
  | _, [] => True
  | a, c :: calls => c.Careful a ∧ AllCareful (a.call c).2 calls

instance (a : Arena) (c : Arena.Call) : Decidable (c.Careful a) :=
  match c with
  | .markDistinct _ _ => inferInstanceAs (Decidable (_ ∨ _))
  | .newCell _ _ | .bind _ _ | .link _ _ | .clear _ | .clearAll _ | .find _ =>
    inferInstanceAs (Decidable True)

instance Arena.Call.decidableAllCareful : ∀ (a : Arena) (calls : List Arena.Call),
    Decidable (Arena.Call.AllCareful a calls)
  | _, [] => inferInstanceAs (Decidable True)
  | a, c :: calls =>
    have := decidableAllCareful (a.call c).2 calls
    inferInstanceAs (Decidable (c.Careful a ∧ Arena.Call.AllCareful (a.call c).2 calls))

namespace Arena

/-- No two cells that were marked distinct have the same value. -/
def Differs (a : Arena) : Prop :=
  ∀ i j, j ∈ a.partners i → ∀ v, a.value? i = some v → a.value? j ≠ some v

theorem differs_empty : empty.Differs := fun i j hj => by simp [partners, empty] at hj

theorem Differs.of_revalued {a b : Arena} (hd : a.Differs) (hb : a.Revalued a.value? b) :
    b.Differs := by
  rw [Differs, hb.partners, hb.value?]
  exact hd

/-- Taking values away makes nothing equal. -/
theorem Differs.of_revalued_none {a b : Arena} {ν : Nat → Option String} (hd : a.Differs)
    (hb : a.Revalued ν b) (hν : ∀ i, ν i = none ∨ ν i = a.value? i) : b.Differs := by
  rw [Differs, hb.partners, hb.value?]
  intro i j hj v hi hj'
  rcases hν i with hi0 | hi0
  · rw [hi0] at hi
    cases hi
  · rcases hν j with hj0 | hj0
    · rw [hj0] at hj'
      cases hj'
    · exact hd i j hj v (hi0 ▸ hi) (hj0 ▸ hj')

namespace Sound

variable {a : Arena} (h : a.Sound)

include h

/-- A value that a class accepts is held by no cell that is distinct from one of its members. -/
theorem value?_ne_of_accepts {i j k : Nat} {v : String} (hd : a.Differs) (hk : k < a.size)
    (haccepts : a.accepts k v = true) (hik : a.root i = a.root k) (hj : j ∈ a.partners i) :
    a.value? j ≠ some v := by
  rw [accepts, ← value?_eq_of_root hik] at haccepts
  cases hvalue : a.value? i with
  | some w =>
    rw [hvalue] at haccepts
    rw [← beq_iff_eq.1 haccepts]
    exact hd i j hj w hvalue
  | none =>
    rw [hvalue] at haccepts
    intro hv
    have hi := (h.mem_members k i hk).2 ⟨lt_size_of_mem_partners hj, hik⟩
    have hexcluded : a.isExcluded k v = true :=
      List.any_eq_true.2 ⟨i, hi, List.any_eq_true.2 ⟨j, hj, beq_iff_eq.2 hv⟩⟩
    simp [hexcluded] at haccepts

/-- **Binding** keeps distinct cells different. -/
theorem differs_bind {b : Arena} {k : Nat} {v : String} (hd : a.Differs) (hk : k < a.size)
    (haccepts : a.accepts k v = true) (hb : a.Revalued (a.valuesWith k (some v)) b) :
    b.Differs := by
  rw [Differs, hb.partners, hb.value?]
  intro i j hj w hi hj'
  have hne := h.root_ne_of_mem_partners i j hj
  -- at most one of the two cells is in the class
  rw [valuesWith] at hi hj'
  split at hi
  · rename_i hik
    rw [if_neg fun hjk => hne (hik.trans hjk.symm), ← hi] at hj'
    exact h.value?_ne_of_accepts hd hk haccepts hik hj hj'
  · split at hj'
    · rename_i hjk
      rw [← hj'] at hi
      exact h.value?_ne_of_accepts hd hk haccepts hjk (h.partners_comm i j hj) hi
    · exact hd i j hj w hi hj'

/-- **A careful call** keeps distinct cells different. -/
theorem differs_call (hd : a.Differs) {c : Call} (hc : ∀ i ∈ c.cells, i < a.size)
    (hcareful : c.Careful a) : (a.call c).2.Differs := by
  have hcalled := h.called hc
  generalize (a.call c).1 = reply, (a.call c).2 = b at hcalled ⊢
  cases hcalled with
  | unseen hb => exact hd.of_revalued hb
  | made hb =>
    rw [Differs, hb.partners, hb.value?]
    intro i j hj
    have hi := Nat.ne_of_lt (lt_size_of_mem_partners hj)
    have hj' := Nat.ne_of_lt (h.lt_of_mem_partners hj)
    rw [Function.update_of_ne hi, Function.update_of_ne hj']
    exact hd i j hj
  | bound hk haccepts hb => exact h.differs_bind hd hk haccepts hb
  | freed hν _ hb => exact hd.of_revalued_none hb hν
  | merged hb =>
    rw [Differs, hb.partners, hb.value?]
    exact hd
  | @marked i j b _ hvalue hmarks =>
    intro k m hm v hk hm'
    rw [hvalue] at hk hm'
    have hdifferent : a.value? i = none ∨ a.value? i ≠ a.value? j := hcareful
    rcases (hmarks k m).1 hm with hold | ⟨rfl, rfl⟩ | ⟨rfl, rfl⟩
    · exact hd k m hold v hk hm'
    · simp [hk, hm'] at hdifferent
    · simp [hk, hm'] at hdifferent

end Sound

/-- A run of careful calls keeps distinct cells different. -/
theorem differs_run : ∀ {calls : List Call} {p : Partition} {a : Arena}, p.Shows a →
    Call.Valid a.size calls → Call.AllCareful a calls → a.Differs →
    (Call.run call a calls).2.Differs
  | [], _, _, _, _, _, hd => hd
  | c :: _, _, _, h, hvalid, hcareful, hd => by
    have hrest := (h.size_call c hvalid.1).symm ▸ hvalid.2
    have hlast := differs_run (h.call c hvalid.1).2 hrest hcareful.2
      (h.sound.differs_call hd hvalid.1 hcareful.1)
    exact hlast

/-- Cells that were marked distinct are in different classes, and so are the values of whatever is
linked to them. -/
structure KeepsApart (a : Arena) : Prop where
  classes : ∀ i j, j ∈ a.partners i → a.root i ≠ a.root j
  values : ∀ i j, j ∈ a.partners i → ∀ i' j', a.root i' = a.root i → a.root j' = a.root j →
    ∀ v, a.value? i' = some v → a.value? j' ≠ some v

theorem Sound.keepsApart {a : Arena} (h : a.Sound) (hd : a.Differs) : a.KeepsApart where
  classes := h.root_ne_of_mem_partners
  values i j hj i' j' hi' hj' v hv := by
    rw [value?_eq_of_root hi'] at hv
    rw [value?_eq_of_root hj']
    exact hd i j hj v hv

end Arena

/-! ### Marks are kept -/

namespace Partition

theorem marked_call {p : Partition} {i j : Nat} (c : Arena.Call) (h : p.marked i j = true) :
    (p.call c).2.marked i j = true := by
  have hdistinct : ∀ q : Partition, q.distinct = p.distinct → q.marked i j = true := fun q hq => by
    rw [marked, hq]
    exact h
  cases c with
  | bind k v =>
    cases v with
    | none => exact h
    | some v => exact hdistinct _ (by simp only [call, bind]; split <;> rfl)
  | link k m =>
    refine hdistinct _ ?_
    simp only [call, link, bind]
    repeat' split
    all_goals rfl
  | clear k => exact hdistinct _ (by simp only [call, clear]; split <;> rfl)
  | markDistinct k m =>
    rw [call]
    split
    · exact h
    · split
      · exact h
      · rw [marked, Bool.or_eq_true, List.contains_iff_mem, List.contains_iff_mem] at h ⊢
        exact h.imp (List.mem_cons_of_mem _) (List.mem_cons_of_mem _)
  | newCell v scope => exact h
  | clearAll scope => exact h
  | find k => exact h

theorem marked_run {i j : Nat} : ∀ (calls : List Arena.Call) {p : Partition}, p.marked i j = true →
    (Arena.Call.run call p calls).2.marked i j = true
  | [], _, h => h
  | c :: calls, _, h => marked_run calls (marked_call c h)

/-- A mark that was made stands to the end of the run. -/
theorem marked_of_markDistinct {k i j : Nat} : ∀ {calls : List Arena.Call} {p : Partition},
    calls[k]? = some (.markDistinct i j) → (Arena.Call.run call p calls).1[k]? = some .done →
    (Arena.Call.run call p calls).2.marked i j = true
  | [], _, hcall, _ => by simp at hcall
  | c :: calls, p, hcall, hdone => by
    cases k with
    | zero =>
      obtain rfl := Option.some.inj hcall
      have hreply : (p.call (.markDistinct i j)).1 = .done := Option.some.inj hdone
      have hmarked : (p.call (.markDistinct i j)).2.marked i j = true := by
        rw [Partition.call] at hreply ⊢
        split at hreply
        · cases hreply
        · split at hreply
          · cases hreply
          · rw [if_neg ‹_›, if_neg ‹_›, marked, List.contains_cons, beq_self_eq_true,
              Bool.true_or, Bool.true_or]
      exact marked_run calls hmarked
    | succ k =>
      have hnext : calls[k]? = some (.markDistinct i j) := hcall
      have hrest : (Arena.Call.run Partition.call (p.call c).2 calls).1[k]? = some .done := hdone
      have hlast := marked_of_markDistinct hnext hrest
      exact hlast

end Partition

namespace Arena.Call

theorem Valid.take : ∀ {calls : List Arena.Call} {n : Nat}, Valid n calls →
    ∀ m, Valid n (calls.take m)
  | [], _, h, m => by rw [List.take_nil]; exact h
  | _ :: _, _, _, 0 => trivial
  | _ :: _, _, h, m + 1 => ⟨h.1, h.2.take m⟩

theorem AllCareful.take : ∀ {calls : List Arena.Call} {a : Arena}, AllCareful a calls →
    ∀ m, AllCareful a (calls.take m)
  | [], _, h, m => by rw [List.take_nil]; exact h
  | _ :: _, _, _, 0 => trivial
  | _ :: _, _, h, m + 1 => ⟨h.1, h.2.take m⟩

end Arena.Call

/-- **Distinct cells stay different.** At every moment of a run of careful calls, the marks made so
far stand, no two cells with a mark between them are in one class, and no two of them have the same
value, nor has what is linked to them. -/
theorem Arena.distinct_stay_different {calls : List Call} (hvalid : Call.Valid 0 calls)
    (hcareful : Call.AllCareful empty calls) (n : Nat) :
    (Call.run call empty (calls.take n)).2.KeepsApart ∧
      ∀ k i j : Nat, (calls.take n)[k]? = some (.markDistinct i j) →
        (Call.run call empty (calls.take n)).1[k]? = some .done →
        j ∈ (Call.run call empty (calls.take n)).2.partners i := by
  have hvalid' := hvalid.take n
  obtain ⟨hreplies, hshows⟩ := Partition.shows_empty.run hvalid'
  refine ⟨hshows.sound.keepsApart ?_, fun k i j hcall hdone => ?_⟩
  · exact differs_run Partition.shows_empty hvalid' (hcareful.take n) differs_empty
  · rw [← hshows.marked]
    exact Partition.marked_of_markDistinct hcall (hreplies.symm ▸ hdone)

/-- A cell that is linked to a marked one later. -/
theorem Arena.distinct_stay_different_linked :
    Call.Valid 0 [.newCell none 0, .newCell none 0, .newCell (some "a") 0, .markDistinct 1 2,
      .link 0 1, .bind 0 (some "b")] ∧
    Call.AllCareful empty [.newCell none 0, .newCell none 0, .newCell (some "a") 0,
      .markDistinct 1 2, .link 0 1, .bind 0 (some "b")] ∧
    (Call.run call empty ([.newCell none 0, .newCell none 0, .newCell (some "a") 0,
      .markDistinct 1 2, .link 0 1, .bind 0 (some "b")].take 6)).2.KeepsApart :=
  ⟨by decide, by decide +kernel, (distinct_stay_different (by decide) (by decide +kernel) 6).1⟩

end Strips
