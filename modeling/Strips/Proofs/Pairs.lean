import Mathlib.Data.List.Nodup
import Mathlib.Data.Sym.Sym2
import Strips.Proofs.Filing

/-!
# The pairs of a relation

A relation that was made by adding pairs keeps no key in two rows and no partner twice in a row.
Listing its pairs then gives each unordered pair once, so that two relations can be compared by the
number of their pairs and by looking up those of one of them in the other.

## Main definitions

* `PairRelation.Tidy` – one row for each key, without repetition.

## Main results

* `PairRelation.contains_iff_mem_pairs` – the listed pairs are the relation.
* `PairRelation.nodup_pairs` – no unordered pair is listed twice.
* `PairRelation.same_iff` – two relations are the same if they relate the same things.
-/

namespace Strips.PairRelation

variable {α : Type} [BEq α] [LawfulBEq α]

/-- Each key has one row, and no row has a partner twice. -/
structure Tidy (r : PairRelation α) : Prop where
  symm : r.IsSymm
  keys : (r.rows.map Prod.fst).Nodup
  partners : ∀ row ∈ r.rows, row.2.Nodup

omit [LawfulBEq α] in
theorem tidy_empty : ({} : PairRelation α).Tidy := ⟨isSymm_empty, .nil, fun _ h => by cases h⟩

theorem contains_iff {r : PairRelation α} {a b : α} :
    r.contains a b = true ↔ b ∈ partnersIn r.rows a := by
  rw [contains_eq, List.any_beq', List.contains_iff_mem]

/-- A key has one row, so its partners are those of any row of it. -/
theorem contains_iff_exists_row {r : PairRelation α} (h : (r.rows.map Prod.fst).Nodup) {a b : α} :
    r.contains a b = true ↔ ∃ bs, (a, bs) ∈ r.rows ∧ b ∈ bs := by
  rw [contains_iff]
  constructor
  · intro hb
    have ha : a ∈ Index.keys r.rows := by
      by_contra hno
      have hnone : r.rows.find? (·.1 == a) = none :=
        List.find?_eq_none.2 fun row hrow heq => hno (eq_of_beq heq ▸ List.mem_map_of_mem hrow)
      rw [partnersIn, hnone] at hb
      cases hb
    exact ⟨_, (Index.mem_iff h).2 ⟨ha, rfl⟩, hb⟩
  · rintro ⟨bs, hrow, hb⟩
    have hlookup : bs = partnersIn r.rows a := ((Index.mem_iff h).1 hrow).2
    exact hlookup ▸ hb

/-! ### Adding a pair keeps a relation tidy -/

theorem keys_addToRow (a b : α) : ∀ rows : List (α × List α),
    (addToRow a b rows).map Prod.fst =
      if a ∈ rows.map Prod.fst then rows.map Prod.fst else rows.map Prod.fst ++ [a]
  | [] => rfl
  | (x, bs) :: rest => by
    rw [addToRow]
    by_cases hx : (x == a) = true
    · rw [if_pos hx, if_pos (by simp [eq_of_beq hx])]
      rfl
    · have hax : a ≠ x := fun h => hx (beq_iff_eq.2 h.symm)
      rw [if_neg hx, List.map_cons, keys_addToRow a b rest]
      simp only [List.map_cons, List.mem_cons, hax, false_or]
      split <;> rfl

theorem nodup_keys_addToRow {a b : α} {rows : List (α × List α)} (h : (rows.map Prod.fst).Nodup) :
    ((addToRow a b rows).map Prod.fst).Nodup := by
  rw [keys_addToRow]
  split
  · exact h
  · rename_i ha
    exact h.append (List.nodup_singleton a) (List.disjoint_singleton.2 ha)

/-- Only the row of `a` changes: `b` comes first in it. -/
theorem eq_of_mem_addToRow {a b : α} {row : α × List α} : ∀ {rows : List (α × List α)},
    row ∈ addToRow a b rows → row ∈ rows ∨ row = (a, b :: partnersIn rows a)
  | [], h => .inr (List.mem_singleton.1 h)
  | (x, bs) :: rest, h => by
    rw [addToRow] at h
    by_cases hx : (x == a) = true
    · rw [if_pos hx] at h
      rcases List.mem_cons.1 h with rfl | h
      · right
        simp [partnersIn, eq_of_beq hx]
      · exact .inl (List.mem_cons_of_mem _ h)
    · rw [if_neg hx] at h
      have hp : partnersIn ((x, bs) :: rest) a = partnersIn rest a := by simp [partnersIn, hx]
      rcases List.mem_cons.1 h with rfl | h
      · exact .inl List.mem_cons_self
      · rw [hp]
        exact (eq_of_mem_addToRow h).imp_left (List.mem_cons_of_mem _)

omit [LawfulBEq α] in
theorem nodup_partnersIn {rows : List (α × List α)} (h : ∀ row ∈ rows, row.2.Nodup) (a : α) :
    (partnersIn rows a).Nodup := by
  rw [partnersIn]
  cases hrow : rows.find? (·.1 == a) with
  | none => exact .nil
  | some row => exact h row (List.mem_of_find?_eq_some hrow)

theorem nodup_rows_addToRow {a b : α} {rows : List (α × List α)} (h : ∀ row ∈ rows, row.2.Nodup)
    (hb : b ∉ partnersIn rows a) : ∀ row ∈ addToRow a b rows, row.2.Nodup := by
  intro row hrow
  rcases eq_of_mem_addToRow hrow with hrow | rfl
  · exact h row hrow
  · exact List.nodup_cons.2 ⟨hb, nodup_partnersIn h a⟩

theorem Tidy.add {r : PairRelation α} (h : r.Tidy) (a b : α) : (r.add a b).Tidy := by
  refine ⟨h.symm.add a b, ?_, ?_⟩
  · rw [PairRelation.add]
    split
    · exact h.keys
    · split
      · exact nodup_keys_addToRow h.keys
      · exact nodup_keys_addToRow (nodup_keys_addToRow h.keys)
  · rw [PairRelation.add]
    split
    · exact h.partners
    · rename_i hab
      have hb : b ∉ partnersIn r.rows a := fun hb => hab (contains_iff.2 hb)
      split
      · exact nodup_rows_addToRow h.partners hb
      · rename_i hne
        refine nodup_rows_addToRow (nodup_rows_addToRow h.partners hb) fun ha => ?_
        -- the row of `b` did not change, and by symmetry `a` is not in it
        have hmem := partnersIn_addToRow a b b a r.rows
        rw [List.any_beq', List.contains_iff_mem.2 ha, Bool.eq_false_iff.2 hne, Bool.false_and,
          Bool.or_false, List.any_beq', eq_comm, List.contains_iff_mem] at hmem
        exact hab (h.symm a b ▸ contains_iff.2 hmem)

theorem Tidy.addAll {pairs : List (α × α)} : ∀ {r : PairRelation α},
    r.Tidy → (r.addAll pairs).Tidy := by
  induction pairs with
  | nil => exact id
  | cons p pairs ih => exact fun h => ih (h.add p.1 p.2)

/-! ### Listing the pairs -/

theorem exists_row_of_mem_pairsAfter {a b : α} : ∀ {rows : List (α × List α)} {earlier : List α},
    (a, b) ∈ pairsAfter earlier rows → (∃ bs, (a, bs) ∈ rows ∧ b ∈ bs) ∧ b ∉ earlier
  | [], _, h => by cases h
  | (x, bs) :: rest, earlier, h => by
    rw [pairsAfter] at h
    rcases List.mem_append.1 h with h | h
    · obtain ⟨c, hc, heq⟩ := List.mem_map.1 h
      obtain ⟨rfl, rfl⟩ := Prod.mk.inj heq
      obtain ⟨hc, hearlier⟩ := List.mem_filter.1 hc
      exact ⟨⟨bs, List.mem_cons_self, hc⟩, by simpa using hearlier⟩
    · obtain ⟨⟨cs, hrow, hb⟩, hearlier⟩ := exists_row_of_mem_pairsAfter h
      exact ⟨⟨cs, List.mem_cons_of_mem _ hrow, hb⟩, fun hb => hearlier (List.mem_cons_of_mem x hb)⟩

/-- A pair is listed at the row that comes first of its two. -/
theorem mem_pairsAfter {a b : α} {bs as : List α} (hb : b ∈ bs) (ha : a ∈ as) :
    ∀ {rows : List (α × List α)} {earlier : List α}, (rows.map Prod.fst).Nodup →
      (a, bs) ∈ rows → (b, as) ∈ rows → a ∉ earlier → b ∉ earlier →
      (a, b) ∈ pairsAfter earlier rows ∨ (b, a) ∈ pairsAfter earlier rows
  | [], _, _, h, _, _, _ => by cases h
  | (x, cs) :: rest, earlier, hnodup, hrowa, hrowb, haear, hbear => by
    rw [List.map_cons, List.nodup_cons] at hnodup
    rw [pairsAfter, List.mem_append, List.mem_append]
    rcases List.mem_cons.1 hrowa with heq | hrowa
    · obtain ⟨rfl, rfl⟩ := Prod.mk.inj heq
      exact .inl (.inl (List.mem_map_of_mem (List.mem_filter.2 ⟨hb, by simpa using hbear⟩)))
    · rcases List.mem_cons.1 hrowb with heq | hrowb
      · obtain ⟨rfl, rfl⟩ := Prod.mk.inj heq
        exact .inr (.inl (List.mem_map_of_mem (List.mem_filter.2 ⟨ha, by simpa using haear⟩)))
      · have hne : ∀ {y ys}, (y, ys) ∈ rest → y ∉ earlier → y ∉ x :: earlier := by
          intro y ys hrow hy hmem
          rcases List.mem_cons.1 hmem with rfl | hmem
          · exact hnodup.1 (List.mem_map.2 ⟨_, hrow, rfl⟩)
          · exact hy hmem
        exact (mem_pairsAfter hb ha hnodup.2 hrowa hrowb (hne hrowa haear) (hne hrowb hbear)).imp
          .inr .inr

theorem nodup_pairsAfter : ∀ {rows : List (α × List α)} {earlier : List α},
    (rows.map Prod.fst).Nodup → (∀ row ∈ rows, row.2.Nodup) →
      ((pairsAfter earlier rows).map fun p => s(p.1, p.2)).Nodup
  | [], _, _, _ => .nil
  | (x, bs) :: rest, earlier, hkeys, hrows => by
    rw [List.map_cons, List.nodup_cons] at hkeys
    rw [pairsAfter, List.map_append, List.map_map]
    refine List.Nodup.append ?_ (nodup_pairsAfter hkeys.2 fun row hrow =>
      hrows row (List.mem_cons_of_mem _ hrow)) ?_
    · refine ((hrows _ List.mem_cons_self).filter _).map_on fun b _ c _ heq => ?_
      exact Sym2.congr_right.1 heq
    · intro z hz hz'
      obtain ⟨b, -, rfl⟩ := List.mem_map.1 hz
      obtain ⟨⟨y, c⟩, hyc, heq⟩ := List.mem_map.1 hz'
      obtain ⟨⟨cs, hrow, -⟩, hc⟩ := exists_row_of_mem_pairsAfter hyc
      -- the pair of an earlier row has its key, which no later pair has
      rcases Sym2.eq_iff.1 heq with ⟨rfl, -⟩ | ⟨-, rfl⟩
      · exact hkeys.1 (List.mem_map.2 ⟨_, hrow, rfl⟩)
      · exact hc List.mem_cons_self

/-- The listed pairs are the relation, each in one of its two orders. -/
theorem Tidy.contains_iff_mem_pairs {r : PairRelation α} (h : r.Tidy) {a b : α} :
    r.contains a b = true ↔ (a, b) ∈ r.pairs ∨ (b, a) ∈ r.pairs := by
  constructor
  · intro hab
    obtain ⟨bs, hrowa, hb⟩ := (contains_iff_exists_row h.keys).1 hab
    obtain ⟨as, hrowb, ha⟩ := (contains_iff_exists_row h.keys).1 (h.symm a b ▸ hab)
    exact mem_pairsAfter hb ha h.keys hrowa hrowb List.not_mem_nil List.not_mem_nil
  · rintro (hab | hba)
    · exact (contains_iff_exists_row h.keys).2 (exists_row_of_mem_pairsAfter hab).1
    · rw [h.symm]
      exact (contains_iff_exists_row h.keys).2 (exists_row_of_mem_pairsAfter hba).1

/-- No unordered pair is listed twice. -/
theorem Tidy.nodup_pairs {r : PairRelation α} (h : r.Tidy) :
    (r.pairs.map fun p => s(p.1, p.2)).Nodup :=
  nodup_pairsAfter h.keys h.partners

theorem Tidy.mk_mem_iff {r : PairRelation α} (h : r.Tidy) {a b : α} :
    s(a, b) ∈ r.pairs.map (fun p => s(p.1, p.2)) ↔ r.contains a b = true := by
  rw [h.contains_iff_mem_pairs, List.mem_map]
  constructor
  · rintro ⟨⟨c, d⟩, hcd, heq⟩
    rcases Sym2.eq_iff.1 heq with ⟨rfl, rfl⟩ | ⟨rfl, rfl⟩
    · exact .inl hcd
    · exact .inr hcd
  · rintro (hab | hba)
    · exact ⟨_, hab, rfl⟩
    · exact ⟨_, hba, Sym2.eq_swap⟩

/-- A new pair is one more. -/
theorem Tidy.size_add {r : PairRelation α} (h : r.Tidy) {a b : α} (hab : r.contains a b = false) :
    (r.add a b).size = r.size + 1 := by
  have hnew : s(a, b) ∉ r.pairs.map fun p => s(p.1, p.2) := by
    rw [h.mk_mem_iff, hab]
    exact Bool.false_ne_true
  have hperm := (List.perm_ext_iff_of_nodup (h.add a b).nodup_pairs
    (List.nodup_cons.2 ⟨hnew, h.nodup_pairs⟩)).2 fun z => by
      induction z with
      | _ c d =>
        rw [(h.add a b).mk_mem_iff, contains_add r h.symm, List.mem_cons, h.mk_mem_iff]
        simp only [Bool.or_eq_true, Bool.and_eq_true, beq_iff_eq, Sym2.eq_iff]
        grind
  have hlength := hperm.length_eq
  rwa [List.length_cons, List.length_map, List.length_map] at hlength

/-- **Two relations are the same if they relate the same things.** -/
theorem Tidy.same_iff {r s : PairRelation α} (hr : r.Tidy) (hs : s.Tidy) :
    r.same s = true ↔ ∀ a b, r.contains a b = s.contains a b := by
  have hsub : (r.pairs.all fun p => s.contains p.1 p.2) = true ↔
      r.pairs.map (fun p => s(p.1, p.2)) ⊆ s.pairs.map fun p => s(p.1, p.2) := by
    rw [List.all_eq_true, List.subset_def, List.forall_mem_map]
    exact forall₂_congr fun p _ => hs.mk_mem_iff.symm
  have hsize : (r.size == s.size) = true ↔
      (r.pairs.map fun p => s(p.1, p.2)).length = (s.pairs.map fun p => s(p.1, p.2)).length := by
    rw [beq_iff_eq, List.length_map, List.length_map, size, size]
  rw [same, Bool.and_eq_true, hsize]
  refine (and_congr_right' hsub).trans ?_
  constructor
  · rintro ⟨hlen, hsub⟩ a b
    have hperm := (hr.nodup_pairs.subperm hsub).perm_of_length_le (Nat.le_of_eq hlen.symm)
    rw [Bool.eq_iff_iff, ← hr.mk_mem_iff, ← hs.mk_mem_iff, hperm.mem_iff]
  · intro heq
    have hperm := (List.perm_ext_iff_of_nodup hr.nodup_pairs hs.nodup_pairs).2 fun z => by
      induction z with
      | _ a b => rw [hr.mk_mem_iff, hs.mk_mem_iff, heq]
    exact ⟨hperm.length_eq, hperm.subset⟩

end Strips.PairRelation
