import Mathlib.Data.List.Forall2
import Strips.Index
import Strips.PairRelation

/-!
# Filing and relating, item by item

Layers are built by two loops. One files steps in an index, each under several facts; the other adds
pairs to a relation. This module says what the two loops leave behind, for any kind of key and item.

Items are compared with `==`, which may be coarser than equality, and an index keeps only the first
of several items that are the same. What is filed is therefore said twice: `mem_lookup_fileAll` is
about the items that an index really holds, and `contains_lookup_fileAll` about all that are the
same as one of them.

## Main results

* `Index.mem_lookup_fileAll`, `Index.contains_lookup_fileAll`, `Index.mem_keys_fileAll` – what an
  index holds after a list of items was filed.
* `Index.mem_iff` – the rows of an index are its keys with what is filed under them.
* `Index.forall₂_fileAll` – two loops that file related items under related keys.
* `PairRelation.contains_addAll` – what a relation relates after a list of pairs was added.
-/

namespace Strips

namespace Index

variable {κ α : Type} [BEq κ] [BEq α]

/-- File the items of a list one after the other, each under the keys that it has. -/
def fileAll (keysOf : α → List κ) (items : List α) (index : Index κ α) : Index κ α :=
  items.foldl (fun index x => index.fileUnder (keysOf x) x) index

@[simp] theorem fileUnder_nil (index : Index κ α) (x : α) : index.fileUnder [] x = index := rfl

@[simp] theorem fileUnder_cons (index : Index κ α) (k : κ) (ks : List κ) (x : α) :
    index.fileUnder (k :: ks) x = (index.file k x).fileUnder ks x := rfl

theorem fileUnder_append (index : Index κ α) (ks ls : List κ) (x : α) :
    (index.fileUnder ks x).fileUnder ls x = index.fileUnder (ks ++ ls) x :=
  (List.foldl_append ..).symm

@[simp] theorem fileAll_nil (keysOf : α → List κ) (index : Index κ α) :
    fileAll keysOf [] index = index := rfl

@[simp] theorem fileAll_cons (keysOf : α → List κ) (x : α) (items : List α) (index : Index κ α) :
    fileAll keysOf (x :: items) index = fileAll keysOf items (index.fileUnder (keysOf x) x) := rfl

variable [LawfulBEq κ]

/-! ### What is filed under a key -/

theorem mem_lookup_file {index : Index κ α} {key k : κ} {x t : α}
    (h : t ∈ (index.file key x).lookup k) : t ∈ index.lookup k ∨ t = x ∧ k = key := by
  rw [lookup_file] at h
  split at h
  · rename_i hk
    split at h
    · exact .inl h
    · rcases List.mem_append.1 h with h | h
      · exact .inl h
      · exact .inr ⟨List.mem_singleton.1 h, (eq_of_beq hk).symm⟩
  · exact .inl h

theorem mem_lookup_fileUnder {ks : List κ} {k : κ} {x t : α} : ∀ {index : Index κ α},
    t ∈ (index.fileUnder ks x).lookup k → t ∈ index.lookup k ∨ t = x ∧ k ∈ ks := by
  induction ks with
  | nil => exact fun h => .inl h
  | cons key ks ih =>
    intro index h
    rw [fileUnder_cons] at h
    rcases ih h with h | ⟨ht, hk⟩
    · rcases mem_lookup_file h with h | ⟨ht, hk⟩
      · exact .inl h
      · exact .inr ⟨ht, hk ▸ List.mem_cons_self⟩
    · exact .inr ⟨ht, List.mem_cons_of_mem key hk⟩

/-- An index holds items of the list, under keys that they have. -/
theorem mem_lookup_fileAll {keysOf : α → List κ} {items : List α} {k : κ} {t : α} :
    ∀ {index : Index κ α}, t ∈ (fileAll keysOf items index).lookup k →
      t ∈ index.lookup k ∨ t ∈ items ∧ k ∈ keysOf t := by
  induction items with
  | nil => exact fun h => .inl h
  | cons x items ih =>
    intro index h
    rw [fileAll_cons] at h
    rcases ih h with h | ⟨ht, hk⟩
    · rcases mem_lookup_fileUnder h with h | ⟨rfl, hk⟩
      · exact .inl h
      · exact .inr ⟨List.mem_cons_self, hk⟩
    · exact .inr ⟨List.mem_cons_of_mem x ht, hk⟩

variable [EquivBEq α]

theorem contains_lookup_file (index : Index κ α) (key k : κ) (x t : α) :
    ((index.file key x).lookup k).contains t =
      ((index.lookup k).contains t || (key == k && t == x)) := by
  rw [lookup_file]
  by_cases hk : (key == k) = true
  · rw [if_pos hk, hk, Bool.true_and]
    split
    · rename_i hx
      by_cases ht : (t == x) = true
      · rw [List.contains_congr ht, hx, Bool.true_or]
      · rw [Bool.eq_false_iff.2 ht, Bool.or_false]
    · simp
  · rw [if_neg hk, Bool.eq_false_iff.2 hk, Bool.false_and, Bool.or_false]

theorem contains_lookup_fileUnder {ks : List κ} {k : κ} {x t : α} : ∀ {index : Index κ α},
    ((index.fileUnder ks x).lookup k).contains t = true ↔
      (index.lookup k).contains t = true ∨ k ∈ ks ∧ (t == x) = true := by
  induction ks with
  | nil => intro index; simp
  | cons key ks ih =>
    intro index
    rw [fileUnder_cons, ih, contains_lookup_file, Bool.or_eq_true, Bool.and_eq_true, beq_iff_eq,
      List.mem_cons, or_assoc, ← or_and_right, eq_comm (a := key)]

/-- An item that has a key is filed under it, up to sameness. -/
theorem contains_lookup_fileAll {keysOf : α → List κ} {items : List α} {k : κ} {t : α} :
    ∀ {index : Index κ α}, ((fileAll keysOf items index).lookup k).contains t = true ↔
      (index.lookup k).contains t = true ∨ ∃ x ∈ items, k ∈ keysOf x ∧ (t == x) = true := by
  induction items with
  | nil => intro index; simp
  | cons x items ih =>
    intro index
    simp only [fileAll_cons, ih, contains_lookup_fileUnder, or_assoc, List.mem_cons,
      exists_eq_or_imp]

omit [EquivBEq α]

/-! ### Keys and rows -/

omit [BEq α] in
/-- What is filed under a key stands in a row of it. -/
theorem mk_lookup_mem {index : Index κ α} {k : κ} {x : α} (h : x ∈ index.lookup k) :
    (k, index.lookup k) ∈ index := by
  rw [lookup] at h ⊢
  cases hrow : index.find? (·.1 == k) with
  | none =>
    rw [hrow] at h
    cases h
  | some row =>
    have hk := List.find?_some hrow
    obtain rfl : row.1 = k := eq_of_beq hk
    exact List.mem_of_find?_eq_some hrow

theorem mem_keys_file {index : Index κ α} {key k : κ} {x : α} :
    k ∈ (index.file key x).keys ↔ k ∈ index.keys ∨ k = key := by
  rw [keys_file]
  split
  · rename_i h
    exact ⟨.inl, fun hk => hk.elim id fun e => e ▸ List.contains_iff_mem.1 h⟩
  · rw [List.mem_append, List.mem_singleton]

theorem mem_keys_fileUnder {ks : List κ} {k : κ} {x : α} : ∀ {index : Index κ α},
    k ∈ (index.fileUnder ks x).keys ↔ k ∈ index.keys ∨ k ∈ ks := by
  induction ks with
  | nil => intro index; simp
  | cons key ks ih =>
    intro index
    rw [fileUnder_cons, ih, mem_keys_file, List.mem_cons, or_assoc]

theorem mem_keys_fileAll {keysOf : α → List κ} {items : List α} {k : κ} :
    ∀ {index : Index κ α}, k ∈ (fileAll keysOf items index).keys ↔
      k ∈ index.keys ∨ ∃ x ∈ items, k ∈ keysOf x := by
  induction items with
  | nil => intro index; simp
  | cons x items ih =>
    intro index
    simp only [fileAll_cons, ih, mem_keys_fileUnder, or_assoc, List.mem_cons, exists_eq_or_imp]

theorem nodup_keys_file {index : Index κ α} (h : index.keys.Nodup) (key : κ) (x : α) :
    (index.file key x).keys.Nodup := by
  rw [keys_file]
  split
  · exact h
  · rename_i hkey
    rw [List.contains_iff_mem] at hkey
    refine List.nodup_append.2 ⟨h, List.pairwise_singleton _ key, fun a ha b hb e => hkey ?_⟩
    rw [List.mem_singleton.1 hb] at e
    exact e ▸ ha

theorem nodup_keys_fileUnder {ks : List κ} {x : α} : ∀ {index : Index κ α},
    index.keys.Nodup → (index.fileUnder ks x).keys.Nodup := by
  induction ks with
  | nil => exact id
  | cons key ks ih => exact fun h => ih (nodup_keys_file h key x)

/-- No key has two rows. -/
theorem nodup_keys_fileAll {keysOf : α → List κ} {items : List α} : ∀ {index : Index κ α},
    index.keys.Nodup → (fileAll keysOf items index).keys.Nodup := by
  induction items with
  | nil => exact id
  | cons x items ih => exact fun h => ih (nodup_keys_fileUnder h)

/-- No key has two rows in an index that was made by filing. -/
theorem nodup_keys_fileAll_empty (keysOf : α → List κ) (items : List α) :
    (keys (fileAll keysOf items ([] : Index κ α))).Nodup :=
  nodup_keys_fileAll List.nodup_nil

omit [BEq α] in
/-- The rows of an index in which no key has two. -/
theorem mem_iff {index : Index κ α} (h : index.keys.Nodup) {k : κ} {items : List α} :
    (k, items) ∈ index ↔ k ∈ index.keys ∧ items = index.lookup k := by
  induction index with
  | nil => simp [keys]
  | cons row rest ih =>
    obtain ⟨key, xs⟩ := row
    rw [keys_cons, List.nodup_cons] at h
    by_cases hk : key = k
    · subst hk
      have hrow : (key, items) ∉ rest := fun hr => h.1 (List.mem_map_of_mem hr)
      simp [lookup, hrow]
    · have hl : lookup ((key, xs) :: rest) k = lookup rest k := by simp [lookup, hk]
      rw [List.mem_cons, keys_cons, List.mem_cons, hl, ih h.2]
      simp [Ne.symm hk]

/-! ### Filing the same in two ways -/

section Related

variable {α β κ' : Type} [BEq α] [BEq β] [BEq κ']

/-- Of related things, those on the one side are the same if those on the other side are. -/
def Matches (S : α → β → Prop) : Prop :=
  ∀ ⦃x y x' y'⦄, S x y → S x' y' → (x == x') = (y == y')

/-- Rows of two indices with related keys and with related things under them. -/
def RowsMatch (K : κ → κ' → Prop) (S : α → β → Prop) (row : κ × List α) (row' : κ' × List β) :
    Prop :=
  K row.1 row'.1 ∧ List.Forall₂ S row.2 row'.2

variable {K : κ → κ' → Prop} {S : α → β → Prop}

theorem contains_eq_of_forall₂ (hS : Matches S) {xs : List α} {ys : List β}
    (h : List.Forall₂ S xs ys) {x : α} {y : β} (hxy : S x y) : xs.contains x = ys.contains y := by
  induction h with
  | nil => rfl
  | cons hhead _ ih => rw [List.contains_cons, List.contains_cons, ih, hS hxy hhead]

omit [LawfulBEq κ] in
theorem forall₂_file (hK : Matches K) (hS : Matches S) {k : κ} {l : κ'} (hkl : K k l) {x : α}
    {y : β} (hxy : S x y) {index : Index κ α} {other : Index κ' β}
    (h : List.Forall₂ (RowsMatch K S) index other) :
    List.Forall₂ (RowsMatch K S) (index.file k x) (other.file l y) := by
  induction h with
  | nil => exact .cons ⟨hkl, .cons hxy .nil⟩ .nil
  | @cons row row' rest rest' hrow hrest ih =>
    rw [file, file, hK hrow.1 hkl, contains_eq_of_forall₂ hS hrow.2 hxy]
    split
    · refine .cons ⟨hrow.1, ?_⟩ hrest
      split
      · exact hrow.2
      · exact List.rel_append hrow.2 (.cons hxy .nil)
    · exact .cons hrow ih

omit [LawfulBEq κ] in
theorem forall₂_fileUnder (hK : Matches K) (hS : Matches S) {ks : List κ} {ls : List κ'}
    (hkeys : List.Forall₂ K ks ls) {x : α} {y : β} (hxy : S x y) {index : Index κ α}
    {other : Index κ' β} (h : List.Forall₂ (RowsMatch K S) index other) :
    List.Forall₂ (RowsMatch K S) (index.fileUnder ks x) (other.fileUnder ls y) := by
  induction hkeys generalizing index other with
  | nil => exact h
  | cons hkl _ ih => exact ih (forall₂_file hK hS hkl hxy h)

omit [LawfulBEq κ] in
/-- **Two loops that file related items under related keys** come to related indices. -/
theorem forall₂_fileAll (hK : Matches K) (hS : Matches S) {keysOf : α → List κ}
    {keysOf' : β → List κ'} (hkeys : ∀ x y, S x y → List.Forall₂ K (keysOf x) (keysOf' y))
    {xs : List α} {ys : List β} (hitems : List.Forall₂ S xs ys) {index : Index κ α}
    {other : Index κ' β} (h : List.Forall₂ (RowsMatch K S) index other) :
    List.Forall₂ (RowsMatch K S) (fileAll keysOf xs index) (fileAll keysOf' ys other) := by
  induction hitems generalizing index other with
  | nil => exact h
  | @cons x y _ _ hxy _ ih => exact ih (forall₂_fileUnder hK hS (hkeys x y hxy) hxy h)

omit [BEq α] [BEq β] [LawfulBEq κ] in
theorem forall₂_lookup (hK : Matches K) {k : κ} {l : κ'} (hkl : K k l) {index : Index κ α}
    {other : Index κ' β} (h : List.Forall₂ (RowsMatch K S) index other) :
    List.Forall₂ S (index.lookup k) (other.lookup l) := by
  induction h with
  | nil => exact .nil
  | @cons row row' rest rest' hrow hrest ih =>
    rw [lookup, lookup, List.find?_cons, List.find?_cons, hK hrow.1 hkl]
    cases row'.1 == l with
    | true => exact hrow.2
    | false => exact ih

end Related

end Index

namespace PairRelation

variable {α : Type} [BEq α]

/-- Add the pairs of a list one after the other. -/
def addAll (r : PairRelation α) (pairs : List (α × α)) : PairRelation α :=
  pairs.foldl (fun r p => r.add p.1 p.2) r

@[simp] theorem addAll_nil (r : PairRelation α) : r.addAll [] = r := rfl

@[simp] theorem addAll_cons (r : PairRelation α) (p : α × α) (pairs : List (α × α)) :
    r.addAll (p :: pairs) = (r.add p.1 p.2).addAll pairs := rfl

theorem addAll_append (r : PairRelation α) (ps qs : List (α × α)) :
    r.addAll (ps ++ qs) = (r.addAll ps).addAll qs :=
  List.foldl_append ..

/-- Whether `p` is the unordered pair of `a` and `b`. -/
def Joins (p : α × α) (a b : α) : Prop :=
  (p.1 == a) = true ∧ (p.2 == b) = true ∨ (p.2 == a) = true ∧ (p.1 == b) = true

variable [EquivBEq α]

/-- Adding pairs relates the members of each of them, in both orders, and nothing else. -/
theorem contains_addAll {pairs : List (α × α)} {a b : α} : ∀ {r : PairRelation α}, r.IsSymm →
    ((r.addAll pairs).contains a b = true ↔ r.contains a b = true ∨ ∃ p ∈ pairs, Joins p a b) := by
  induction pairs with
  | nil => intro r _; simp
  | cons p pairs ih =>
    intro r hr
    rw [addAll_cons, ih (hr.add p.1 p.2), contains_add r hr]
    simp only [Bool.or_eq_true, Bool.and_eq_true, Joins, or_assoc, List.mem_cons, exists_eq_or_imp]

/-- In any relation, symmetric or not, a pair that is added is there, in its order. -/
theorem contains_add_self (r : PairRelation α) (a b : α) : (r.add a b).contains a b = true := by
  rw [add]
  split
  · assumption
  · split <;> simp [contains_eq, partnersIn_addToRow]

theorem contains_add_of_contains {r : PairRelation α} {a b : α} (h : r.contains a b = true)
    (c d : α) : (r.add c d).contains a b = true := by
  rw [contains_eq] at h
  rw [add]
  split
  · exact h
  · split <;> simp [contains_eq, partnersIn_addToRow, h]

theorem contains_addAll_of_contains {pairs : List (α × α)} {a b : α} : ∀ {r : PairRelation α},
    r.contains a b = true → (r.addAll pairs).contains a b = true := by
  induction pairs with
  | nil => exact id
  | cons p pairs ih => exact fun h => ih (contains_add_of_contains h p.1 p.2)

theorem contains_addAll_of_mem {pairs : List (α × α)} {a b : α} (h : (a, b) ∈ pairs) :
    ∀ {r : PairRelation α}, (r.addAll pairs).contains a b = true := by
  induction pairs with
  | nil => cases h
  | cons p pairs ih =>
    intro r
    rw [addAll_cons]
    rcases List.mem_cons.1 h with rfl | h
    · exact contains_addAll_of_contains (contains_add_self r a b)
    · exact ih h

end PairRelation

end Strips
