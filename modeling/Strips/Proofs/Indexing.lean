import Mathlib.Data.List.Find
import Strips.Proofs.Partition
import Strips.Proofs.Searching

/-!
# Indexed sets are lists

A set with indices answers as the list of its members would, whatever is done with it and with the
cells of its literals. The values of constants never change, so a constant member stays where it is
filed, and templates are not filed by value at all. That the indices are about the present members
is the invariant `IndexedSet.Coherent`. It is kept by what changes the set and by every call on the
arena.

## Main definitions

* `IndexedSet.Coherent` – the indices are those of the members.
* `SetCall` – calls on a set, and on the cells of its literals.
* `IndexedSet.ActsAsList` – what the operations on a set do, said of a list.

## Main results

* `IndexedSet.Coherent.find?_eq` – looking a literal up finds what going through the members finds.
* `IndexedSet.Kept.step` – one call.
* `IndexedSet.acts_as_list` – a run of calls, from the empty set on.
-/

namespace Strips

/-! ### What literals say -/

namespace Term

/-- What resolves to a constant has its value. -/
theorem resolve_eq_const_iff {a : Arena} {t : Term} {v : String} :
    t.resolve a = const v ↔ t.value? a = some v := by
  cases t with
  | const w => rw [resolve, value?, const.injEq, Option.some.injEq]
  | cell i =>
    rw [resolve, value?]
    cases a.value? i <;> simp

theorem exists_value?_of_isConstant {a : Arena} (ha : a.Sound) {t : Term}
    (ht : t.isConstant a = true) : ∃ v, t.value? a = some v := by
  cases t with
  | const v => exact ⟨v, rfl⟩
  | cell i => exact Option.isSome_iff_exists.1 (ha.isSome_constant i ht)

/-- Against constants, terms are compared by their values. -/
theorem map_resolve_eq_iff {a : Arena} (ha : a.Sound) : ∀ {us ts : List Term},
    (∀ u ∈ us, u.isConstant a = true) →
      (us.map (·.resolve a) = ts.map (·.resolve a) ↔
        (∀ t ∈ ts, (t.value? a).isSome = true) ∧ us.map (·.value? a) = ts.map (·.value? a))
  | [], [], _ => by simp
  | [], _ :: _, _ => by simp
  | _ :: _, [], _ => by simp
  | u :: us, t :: ts, hus => by
    obtain ⟨v, hv⟩ := exists_value?_of_isConstant ha (hus u List.mem_cons_self)
    have hhead : u.resolve a = t.resolve a ↔ t.value? a = some v := by
      rw [resolve_eq_const_iff.2 hv, eq_comm, resolve_eq_const_iff]
    have htail := @map_resolve_eq_iff a ha us ts fun w hw => hus w (List.mem_cons_of_mem u hw)
    simp only [List.map_cons, List.cons.injEq, List.forall_mem_cons, hhead, htail, hv]
    constructor
    · rintro ⟨ht, hsome, hvalues⟩
      exact ⟨⟨by rw [ht]; rfl, hsome⟩, ht.symm, hvalues⟩
    · rintro ⟨⟨-, hsome⟩, ht, hvalues⟩
      exact ⟨ht.symm, hsome, hvalues⟩

end Term

namespace Literal

variable {a : Arena}

theorem same_iff {l m : Literal} : l.same a m = true ↔ l.resolve a = m.resolve a := beq_iff_eq

theorem same_refl (l : Literal) : l.same a l = true := same_iff.2 rfl

/-- A constant literal is the same as the ground literals of its name and values, and as no other
ones. -/
theorem same_iff_key (ha : a.Sound) {l m : Literal} (hm : m.isConstant a = true) :
    m.same a l = true ↔ l.isGround a = true ∧ l.key a = m.key a := by
  have hterms := @Term.map_resolve_eq_iff a ha m.terms l.terms (List.all_eq_true.1 hm)
  rw [same_iff, resolve, resolve, mk.injEq, hterms, isGround, List.all_eq_true, key, key, values,
    values, Prod.mk.injEq, and_left_comm, eq_comm (a := m.name), eq_comm (a := m.terms.map _)]

end Literal

/-! ### Indices -/

namespace IndexedSet

theorem putKey_of_notMem {key : ValueKey} (l : Literal) :
    ∀ {index : List (ValueKey × Literal)}, (∀ e ∈ index, e.1 ≠ key) →
      putKey key l index = index ++ [(key, l)]
  | [], _ => rfl
  | (k, m) :: rest, h => by
    rw [putKey, if_neg (h _ List.mem_cons_self),
      putKey_of_notMem l fun e he => h e (List.mem_cons_of_mem _ he), List.cons_append]

theorem lookup_updateName (name n : String) (f : List Literal → List Literal) :
    ∀ byName : List (String × List Literal),
      ((updateName name f byName).lookup n).getD [] =
        if name = n then f ((byName.lookup n).getD []) else (byName.lookup n).getD []
  | [] => by
    rw [updateName, List.lookup_cons]
    by_cases hn : name = n
    · simp [hn]
    · simp [hn, beq_false_of_ne (Ne.symm hn)]
  | (k, ls) :: rest => by
    have ih := lookup_updateName name n f rest
    rw [updateName]
    by_cases hk : k = name
    · subst hk
      by_cases hn : k = n
      · simp [hn]
      · simp [hn, List.lookup_cons, beq_false_of_ne (Ne.symm hn)]
    · rw [if_neg hk, List.lookup_cons, List.lookup_cons]
      by_cases hn : n = k
      · subst hn
        simp [Ne.symm hk]
      · rw [beq_false_of_ne hn]
        exact ih

theorem lookup_map_key {f : Literal → ValueKey} (k : ValueKey) :
    ∀ ls : List Literal, (ls.map fun m => (f m, m)).lookup k = ls.find? fun m => k == f m
  | [] => rfl
  | m :: ls => by
    rw [List.map_cons, List.lookup_cons, List.find?_cons, lookup_map_key k ls]

/-- The indices of a set are those of its members. The cells of all members are there, and no two
constant members have the same values. -/
structure Coherent (a : Arena) (s : IndexedSet) : Prop where
  index : s.index = (s.items.filter (·.isConstant a)).map fun m => (m.key a, m)
  templates : s.templates = s.items.filter fun m => !m.isConstant a
  named : ∀ n, s.named n = s.items.filter (·.name == n)
  nodup : s.items.Nodup
  apart : ∀ l ∈ s.items, ∀ m ∈ s.items, l.isConstant a = true → m.isConstant a = true →
    l.key a = m.key a → l = m
  holds : ∀ m ∈ s.items, ∀ i ∈ m.cells, i < a.size

theorem coherent_empty (a : Arena) : Coherent a {} where
  index := rfl
  templates := rfl
  named _ := rfl
  nodup := .nil
  apart _ hl := absurd hl List.not_mem_nil
  holds _ hm := absurd hm List.not_mem_nil

namespace Coherent

variable {a : Arena} {s : IndexedSet} (h : s.Coherent a) (ha : a.Sound)

include h ha

/-! ### Looking up -/

/-- **Looking up** finds what going through the members finds. -/
theorem find?_eq (l : Literal) : s.find? a l = s.plain.find? a l := by
  rw [find?, LiteralSet.find?, h.index, h.templates, lookup_map_key]
  refine congrArg (Option.or · _) ?_
  have hsame : ∀ m ∈ s.items.filter (·.isConstant a), m.same a l = true ↔
      l.isGround a = true ∧ l.key a = m.key a := fun m hm =>
    Literal.same_iff_key ha (List.mem_filter.1 hm).2
  split
  · rename_i hground
    refine List.find?_congr fun m hm => ?_
    rw [Bool.eq_iff_iff, hsame m hm, beq_iff_eq]
    exact (and_iff_right hground).symm
  · rename_i hground
    exact (List.find?_eq_none.2 fun m hm hml => hground ((hsame m hm).1 hml).1).symm

theorem exists_of_find?_eq_some {l m : Literal} (hm : s.find? a l = some m) :
    m ∈ s.items ∧ m.same a l = true := by
  rw [h.find?_eq ha, LiteralSet.find?, Option.or_eq_some_iff] at hm
  rcases hm with hm | ⟨-, hm⟩
  · exact ⟨(List.mem_filter.1 (List.mem_of_find?_eq_some hm)).1,
      List.find?_some (p := fun k : Literal => k.same a l) hm⟩
  · exact ⟨(List.mem_filter.1 (List.mem_of_find?_eq_some hm)).1,
      List.find?_some (p := fun k : Literal => k.same a l) hm⟩

theorem contains_iff {l : Literal} :
    s.contains a l = true ↔ ∃ m ∈ s.items, m.same a l = true := by
  rw [contains, Option.isSome_iff_exists]
  refine ⟨fun ⟨m, hm⟩ => ⟨m, h.exists_of_find?_eq_some ha hm⟩, fun ⟨m, hm, hml⟩ => ?_⟩
  rw [← Option.isSome_iff_exists, h.find?_eq ha, LiteralSet.find?, Option.isSome_or,
    Bool.or_eq_true, List.find?_isSome, List.find?_isSome]
  cases hconstant : m.isConstant a with
  | true => exact .inl ⟨m, List.mem_filter.2 ⟨hm, hconstant⟩, hml⟩
  | false => exact .inr ⟨m, List.mem_filter.2 ⟨hm, by rw [hconstant]; rfl⟩, hml⟩

/-! ### Changes of the set -/

/-- **Adding** a literal that no member is the same as. -/
theorem push {l : Literal} (hl : ∀ i ∈ l.cells, i < a.size) (hnew : s.contains a l = false) :
    (s.push a l).Coherent a := by
  have hother : ∀ m ∈ s.items, m.same a l = false := by
    intro m hm
    rw [Bool.eq_false_iff] at hnew ⊢
    exact fun hml => hnew ((h.contains_iff ha).2 ⟨m, hm, hml⟩)
  -- a constant member with the values of a constant literal would be the same
  have hkey : l.isConstant a = true → ∀ m ∈ s.items, m.isConstant a = true →
      m.key a ≠ l.key a := by
    intro hconstant m hm hmc hml
    have hsame := (Literal.same_iff_key ha hconstant).2
      ⟨((Literal.same_iff_key ha hmc).1 (Literal.same_refl m)).1, hml⟩
    have hno := hother m hm
    rw [Literal.same_iff.2 (Literal.same_iff.1 hsame).symm] at hno
    cases hno
  refine ⟨?_, ?_, fun n => ?_, ?_, ?_, ?_⟩
  · rw [IndexedSet.push, List.filter_append, List.map_append, ← h.index]
    cases hconstant : l.isConstant a with
    | true =>
      rw [if_pos rfl, List.filter_cons_of_pos hconstant, putKey_of_notMem]
      · rfl
      · intro e he
        rw [h.index] at he
        obtain ⟨m, hm, rfl⟩ := List.mem_map.1 he
        exact hkey hconstant m (List.mem_filter.1 hm).1 (List.mem_filter.1 hm).2
    | false => simp [hconstant]
  · rw [IndexedSet.push, List.filter_append, ← h.templates]
    cases hconstant : l.isConstant a <;> simp [hconstant]
  · rw [IndexedSet.named, IndexedSet.push, lookup_updateName, List.filter_append, ← h.named]
    by_cases hn : l.name = n <;> simp [hn, IndexedSet.named]
  · refine List.nodup_append.2 ⟨h.nodup, List.pairwise_singleton _ l, fun m hm k hk hmk => ?_⟩
    have hno := hother m hm
    rw [hmk, List.mem_singleton.1 hk, Literal.same_refl] at hno
    cases hno
  · intro k hk m hm hkc hmc hkm
    rcases List.mem_append.1 hk with hk | hk <;> rcases List.mem_append.1 hm with hm | hm
    · exact h.apart k hk m hm hkc hmc hkm
    · rw [List.mem_singleton.1 hm] at hmc hkm
      exact absurd hkm (hkey hmc k hk hkc)
    · rw [List.mem_singleton.1 hk] at hkc hkm
      exact absurd hkm.symm (hkey hkc m hm hmc)
    · exact (List.mem_singleton.1 hk).trans (List.mem_singleton.1 hm).symm
  · intro m hm
    rcases List.mem_append.1 hm with hm | hm
    · exact h.holds m hm
    · exact List.mem_singleton.1 hm ▸ hl

theorem insert {l : Literal} (hl : ∀ i ∈ l.cells, i < a.size) : (s.insert a l).Coherent a := by
  rw [IndexedSet.insert]
  cases hcontains : s.contains a l with
  | true => exact h
  | false => exact h.push ha hl hcontains

theorem insertMany {ls : List Literal} (hls : ∀ l ∈ ls, ∀ i ∈ l.cells, i < a.size) :
    (s.insertMany a ls).Coherent a := by
  induction ls generalizing s with
  | nil => exact h
  | cons l ls ih =>
    exact ih (h.insert ha (hls l List.mem_cons_self)) fun m hm => hls m (List.mem_cons_of_mem l hm)

omit ha in
/-- **Removing** a member. -/
theorem erase {m : Literal} (hm : m ∈ s.items) : (s.erase a m).Coherent a := by
  have hitems : s.items.erase m = s.items.filter (· != m) := h.nodup.erase_eq_filter m
  have htemplate : s.templates.contains m = !m.isConstant a := by
    rw [Bool.eq_iff_iff, List.contains_iff_mem, h.templates, List.mem_filter]
    exact and_iff_right hm
  refine ⟨?_, ?_, fun n => ?_, h.nodup.erase m, ?_, ?_⟩
  · rw [IndexedSet.erase, htemplate, hitems, List.filter_comm, h.index]
    cases hconstant : m.isConstant a with
    | true =>
      rw [Bool.not_true, if_neg Bool.false_ne_true, dropKey, List.filter_map]
      refine congrArg _ (List.filter_congr fun k hk => ?_)
      obtain ⟨hk, hkc⟩ := List.mem_filter.1 hk
      rw [Function.comp_apply, Bool.eq_iff_iff, bne_iff_ne, bne_iff_ne, not_iff_not]
      exact ⟨h.apart k hk m hm hkc hconstant, fun hkm => hkm ▸ rfl⟩
    | false =>
      rw [Bool.not_false, if_pos rfl]
      refine congrArg _ (List.filter_eq_self.2 fun k hk => bne_iff_ne.2 ?_).symm
      rintro rfl
      rw [(List.mem_filter.1 hk).2] at hconstant
      cases hconstant
  · rw [IndexedSet.erase, h.templates, hitems, (h.nodup.filter _).erase_eq_filter, List.filter_comm]
  · have hnamed : (s.erase a m).named n = if m.name = n then (s.named n).erase m else s.named n :=
      lookup_updateName m.name n (·.erase m) s.byName
    rw [hnamed, h.named, IndexedSet.erase, hitems, List.filter_comm]
    split
    · rw [(h.nodup.filter _).erase_eq_filter]
    · rename_i hn
      refine (List.filter_eq_self.2 fun k hk => bne_iff_ne.2 ?_).symm
      rintro rfl
      exact hn (beq_iff_eq.1 (List.mem_filter.1 hk).2)
  · exact fun k hk j hj => h.apart k (List.mem_of_mem_erase hk) j (List.mem_of_mem_erase hj)
  · exact fun k hk => h.holds k (List.mem_of_mem_erase hk)

theorem discard (l : Literal) : (s.discard a l).Coherent a := by
  rw [IndexedSet.discard, remove?]
  cases hm : s.find? a l with
  | none => exact h
  | some m => exact h.erase (h.exists_of_find?_eq_some ha hm).1

end Coherent

end IndexedSet

/-! ### Changes of the cells -/

namespace Arena.Called

variable {a b : Arena} {c : Call} {reply : Reply} (h : a.Called c reply b)

include h

/-- Which cells are constants is settled when they are made. -/
theorem isConstant {i : Nat} (hi : i < a.size) : b.isConstant i = a.isConstant i := by
  cases h with
  | unseen hb => rw [hb.same.isConstant]
  | made hb => rw [hb.isConstant, Function.update_of_ne (Nat.ne_of_lt hi)]
  | bound _ _ hb => rw [hb.same.isConstant]
  | freed _ _ hb => rw [hb.same.isConstant]
  | merged hb => rw [hb.isConstant]
  | marked hsame => rw [hsame.isConstant]

theorem isConstant_literal {l : Literal} (hl : ∀ i ∈ l.cells, i < a.size) :
    l.isConstant b = l.isConstant a := by
  have hterm : ∀ t ∈ l.terms, t.isConstant b = t.isConstant a := by
    intro t ht
    cases t with
    | const v => rfl
    | cell i => exact h.isConstant (hl i (Literal.mem_cells.2 ht))
  rw [Literal.isConstant, Literal.isConstant, Bool.eq_iff_iff, List.all_eq_true, List.all_eq_true]
  exact forall₂_congr fun t ht => by rw [hterm t ht]

/-- A constant literal has the same values for ever. -/
theorem key_literal (ha : a.Sound) {l : Literal} (hl : l.isConstant a = true) :
    l.key b = l.key a := by
  refine congrArg (Prod.mk l.name) (List.map_congr_left fun t ht => ?_)
  have hconstant := List.all_eq_true.1 hl t ht
  cases t with
  | const v => rfl
  | cell i =>
    obtain ⟨v, hv⟩ := Term.exists_value?_of_isConstant ha hconstant
    exact (h.fixes ⟨hconstant, hv⟩).value?.trans hv.symm

end Arena.Called

/-- **A call on the arena** leaves the indices right, although it may change what templates say. -/
theorem IndexedSet.Coherent.called {a b : Arena} {s : IndexedSet} (h : s.Coherent a)
    (ha : a.Sound) {c : Arena.Call} {reply : Arena.Reply} (hb : a.Called c reply b)
    (hsize : a.size ≤ b.size) : s.Coherent b := by
  have hconstant : ∀ m ∈ s.items, m.isConstant b = m.isConstant a := fun m hm =>
    hb.isConstant_literal (h.holds m hm)
  have hfilter : s.items.filter (·.isConstant b) = s.items.filter (·.isConstant a) :=
    List.filter_congr hconstant
  refine ⟨?_, ?_, h.named, h.nodup, fun l hl m hm hlc hmc hlm => ?_,
    fun m hm i hi => Nat.lt_of_lt_of_le (h.holds m hm i hi) hsize⟩
  · rw [h.index, hfilter]
    refine List.map_congr_left fun m hm => ?_
    rw [hb.key_literal ha (List.mem_filter.1 hm).2]
  · rw [h.templates]
    exact (List.filter_congr fun m hm => by rw [hconstant m hm]).symm
  · rw [hconstant l hl] at hlc
    rw [hconstant m hm] at hmc
    rw [hb.key_literal ha hlc, hb.key_literal ha hmc] at hlm
    exact h.apart l hl m hm hlc hmc hlm

/-! ### Calls -/

/-- What is asked of a set, or of the arena of its literals. -/
inductive SetCall where
  | add (l : Literal)
  | update (ls : List Literal)
  | remove (l : Literal)
  | discard (l : Literal)
  | cells (c : Arena.Call)
  deriving DecidableEq, Repr

namespace SetCall

/-- The cells that a call is about. -/
def about : SetCall → List Nat
  | add l | remove l | discard l => l.cells
  | update ls => ls.flatMap Literal.cells
  | cells c => c.cells

/-- The number of cells that a call makes. -/
def made : SetCall → Nat
  | cells c => c.made
  | _ => 0

/-- With `n` cells made before, every call is about cells that there are. -/
def Valid : Nat → List SetCall → Prop
  | _, [] => True
  | n, c :: calls => (∀ i ∈ c.about, i < n) ∧ Valid (n + c.made) calls

instance decidableValid : ∀ n calls, Decidable (Valid n calls)
  | _, [] => inferInstanceAs (Decidable True)
  | n, c :: calls =>
    have := decidableValid (n + c.made) calls
    inferInstanceAs (Decidable ((∀ i ∈ c.about, i < n) ∧ Valid (n + c.made) calls))

/-- Make a call. To remove what is not there changes nothing. -/
def step (state : Arena × IndexedSet) : SetCall → Arena × IndexedSet
  | add l => (state.1, state.2.insert state.1 l)
  | update ls => (state.1, state.2.insertMany state.1 ls)
  | remove l => (state.1, (state.2.remove? state.1 l).getD state.2)
  | discard l => (state.1, state.2.discard state.1 l)
  | cells c => ((state.1.call c).2, state.2)

/-- Make calls one after another, from an empty arena and the empty set on. -/
def run (calls : List SetCall) : Arena × IndexedSet := calls.foldl step (.empty, {})

end SetCall

namespace IndexedSet

/-- An arena as some calls leave it, with a set whose indices are right. -/
structure Kept (state : Arena × IndexedSet) : Prop where
  shows : ∃ p : Partition, p.Shows state.1
  coherent : state.2.Coherent state.1

theorem Kept.sound {state : Arena × IndexedSet} (h : Kept state) : state.1.Sound :=
  h.shows.elim fun _ hp => hp.sound

/-- **One call** keeps the indices right. -/
theorem Kept.step {state : Arena × IndexedSet} (h : Kept state) {c : SetCall}
    (hc : ∀ i ∈ c.about, i < state.1.size) :
    Kept (c.step state) ∧ (c.step state).1.size = state.1.size + c.made := by
  have ha := h.sound
  obtain ⟨⟨p, hp⟩, hs⟩ := h
  cases c with
  | add l => exact ⟨⟨⟨p, hp⟩, hs.insert ha hc⟩, rfl⟩
  | update ls =>
    exact ⟨⟨⟨p, hp⟩, hs.insertMany ha fun l hl i hi => hc i (List.mem_flatMap.2 ⟨l, hl, hi⟩)⟩, rfl⟩
  | remove l => exact ⟨⟨⟨p, hp⟩, hs.discard ha l⟩, rfl⟩
  | discard l => exact ⟨⟨⟨p, hp⟩, hs.discard ha l⟩, rfl⟩
  | cells c =>
    have hsize := hp.size_call c hc
    have hle : state.1.size ≤ (state.1.call c).2.size := hsize ▸ Nat.le_add_right _ _
    exact ⟨⟨⟨_, (hp.call c hc).2⟩, hs.called ha (ha.called hc) hle⟩, hsize⟩

/-- **A run of calls** keeps the indices right. -/
theorem Kept.foldl {calls : List SetCall} {state : Arena × IndexedSet} (h : Kept state)
    (hvalid : SetCall.Valid state.1.size calls) : Kept (calls.foldl SetCall.step state) := by
  induction calls generalizing state with
  | nil => exact h
  | cons c calls ih =>
    obtain ⟨hstep, hsize⟩ := h.step hvalid.1
    refine ih hstep ?_
    rw [hsize]
    exact hvalid.2

theorem kept_empty : Kept (.empty, {}) := ⟨⟨{}, Partition.shows_empty⟩, coherent_empty _⟩

/-! ### Lists -/

/-- The operations on a set, said of the list of its members. -/
structure ActsAsList (a : Arena) (s : IndexedSet) : Prop where
  /-- What is in the set is what some member is the same as. -/
  contains : ∀ l, s.contains a l = true ↔ ∃ m ∈ s.items, m.same a l = true
  /-- A literal is added at the end unless it is in the set. -/
  insert : ∀ l, (s.insert a l).items = if s.contains a l then s.items else s.items ++ [l]
  /-- Exactly what is in the set can be removed. -/
  remove_eq_none : ∀ l, s.remove? a l = none ↔ s.contains a l = false
  /-- One member that is the same as the literal goes, and the others keep their order. -/
  remove : ∀ l t, s.remove? a l = some t → ∃ before m after,
    s.items = before ++ m :: after ∧ m.same a l = true ∧ t.items = before ++ after
  /-- The members with a name stand in the order of insertion. -/
  named : ∀ n, s.named n = s.items.filter (·.name == n)
  /-- No two constant members are the same. -/
  constants : s.items.Pairwise fun l m =>
    l.isConstant a = true → m.isConstant a = true → l.same a m = false

theorem Coherent.actsAsList {a : Arena} {s : IndexedSet} (h : s.Coherent a) (ha : a.Sound) :
    s.ActsAsList a where
  contains _ := h.contains_iff ha
  insert l := by
    rw [IndexedSet.insert]
    split <;> rfl
  remove_eq_none l := by rw [remove?, Option.map_eq_none_iff, contains, Option.isSome_eq_false_iff,
    Option.isNone_iff_eq_none]
  remove l t ht := by
    obtain ⟨m, hm, rfl⟩ := Option.map_eq_some_iff.1 ht
    obtain ⟨hitem, hsame⟩ := h.exists_of_find?_eq_some ha hm
    obtain ⟨before, after, -, hitems, herase⟩ := List.exists_erase_eq hitem
    exact ⟨before, m, after, hitems, hsame, herase⟩
  named := h.named
  constants := by
    refine h.nodup.imp_of_mem fun {l m} hl hm hne hlc hmc => Bool.eq_false_iff.2 fun hlm => hne ?_
    exact h.apart l hl m hm hlc hmc ((Literal.same_iff_key ha hlc).1 hlm).2.symm

end IndexedSet

/-! ### Removing from a set on a workbench -/

namespace Bench

variable {b : Workbench} {h : Handle} {s : IndexedSet} (hs : b.items[h]? = some (.set s))

include hs

theorem gives_set : Gives (set h) b s b := (gives_item hs).bind (gives_pure s)

theorem remove_of_some {l : Literal} {t : IndexedSet} (ht : s.remove? b.arena l = some t) :
    Gives (remove h l) b t { b with items := b.items.setIfInBounds h (.set t) } := by
  refine (gives_set hs).bind (gives_arena.bind ?_)
  rw [ht]
  exact (gives_put h (.set t)).bind (gives_pure t)

theorem remove_of_none {l : Literal} (hl : s.remove? b.arena l = none) :
    (remove h l).run.run b = (.error (.absent (l.text b.arena)), b) := by
  rw [remove, (gives_set hs).run_bind, gives_arena.run_bind, hl]
  rfl

/-- **Removing** is refused exactly when no member is the same as the literal, and then nothing
changes. -/
theorem remove_refused_iff {l : Literal} :
    (remove h l).run.run b = (.error (.absent (l.text b.arena)), b) ↔
      s.contains b.arena l = false := by
  have hnone : s.remove? b.arena l = none ↔ s.contains b.arena l = false := by
    rw [IndexedSet.remove?, Option.map_eq_none_iff, IndexedSet.contains,
      Option.isSome_eq_false_iff, Option.isNone_iff_eq_none]
  rw [← hnone]
  refine ⟨fun hrefused => ?_, remove_of_none hs⟩
  cases ht : s.remove? b.arena l with
  | none => rfl
  | some t =>
    cases (remove_of_some hs ht).symm.trans hrefused

end Bench

/-! ### Runs of calls -/

/-- **A set acts as a list**, whatever was done with it and with the cells of its literals: so do
the operations on it, and to remove from it is refused exactly if no member is the same. -/
theorem IndexedSet.acts_as_list {calls : List SetCall} (hvalid : SetCall.Valid 0 calls)
    {a : Arena} {s : IndexedSet} (hrun : SetCall.run calls = (a, s)) :
    s.ActsAsList a ∧ ∀ (b : Workbench) (h : Handle) (l : Literal), b.arena = a →
      b.items[h]? = some (.set s) →
        ((Bench.remove h l).run.run b = (.error (.absent (l.text a)), b) ↔
          s.contains a l = false) := by
  have hkept : Kept (a, s) := hrun ▸ kept_empty.foldl hvalid
  refine ⟨hkept.coherent.actsAsList hkept.sound, fun b h l hb hs => ?_⟩
  rw [← hb]
  exact Bench.remove_refused_iff hs

/-- Calls that add a literal with a free cell and one with a constant, give the cell the value of
the constant, and remove what both now are. -/
def SetCall.bindLater : List SetCall :=
  [.cells (.newCell (some "a") 0), .cells (.newCell none 0), .add ⟨"p", [.cell 1]⟩,
    .add ⟨"p", [.cell 0]⟩, .cells (.bind 1 (some "a")), .remove ⟨"p", [.cell 1]⟩]

theorem IndexedSet.acts_as_list_bindLater :
    (SetCall.run SetCall.bindLater).2.items = [⟨"p", [.cell 1]⟩] ∧
      (SetCall.run SetCall.bindLater).2.ActsAsList (SetCall.run SetCall.bindLater).1 :=
  ⟨by decide, (acts_as_list (by decide) rfl).1⟩

end Strips
