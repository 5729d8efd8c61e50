/-!
# Indices

An index files things under keys: for a fact, say, the actions that add it. Keys stand in the order
in which they first came, and so do the things under one key, each of them once.
-/

namespace Strips

/-- Things filed under keys. -/
abbrev Index (κ α : Type) : Type := List (κ × List α)

namespace Index

variable {κ α : Type} [BEq κ] [BEq α]

/-- The things filed under a key. -/
def lookup (index : Index κ α) (key : κ) : List α :=
  ((index.find? (·.1 == key)).map Prod.snd).getD []

/-- File a thing under a key, unless it is filed there already. -/
def file (key : κ) (item : α) : Index κ α → Index κ α
  | [] => [(key, [item])]
  | (k, items) :: rest =>
    if k == key then (k, if items.contains item then items else items ++ [item]) :: rest
    else (k, items) :: file key item rest

/-- File one thing under several keys. -/
def fileUnder (index : Index κ α) (keys : List κ) (item : α) : Index κ α :=
  keys.foldl (fun index key => index.file key item) index

/-- The keys, in the order in which they came. -/
def keys (index : Index κ α) : List κ := index.map Prod.fst

/-! ### What filing does -/

omit [BEq α] in
@[simp] theorem lookup_nil (key : κ) : lookup ([] : Index κ α) key = [] := rfl

/-- Filing adds the thing under its key unless it is there, and changes nothing under other keys. -/
theorem lookup_file [LawfulBEq κ] (index : Index κ α) (key k : κ) (item : α) :
    (index.file key item).lookup k =
      if key == k then
        if (index.lookup k).contains item then index.lookup k else index.lookup k ++ [item]
      else index.lookup k := by
  induction index with
  | nil =>
    by_cases h : (key == k) = true
    · rw [file, lookup_nil, if_pos h]
      simp [lookup, h]
    · rw [file, lookup_nil, if_neg h]
      simp [lookup, h]
  | cons row rest ih =>
    obtain ⟨x, items⟩ := row
    rw [file]
    by_cases hx : (x == key) = true
    · rw [if_pos hx]
      obtain rfl := eq_of_beq hx
      by_cases hk : (x == k) = true
      · rw [if_pos hk]
        simp [lookup, hk]
      · rw [if_neg hk]
        simp [lookup, hk]
    · rw [if_neg hx]
      by_cases hk : (x == k) = true
      · obtain rfl := eq_of_beq hk
        have hkx : ¬(key == x) = true := fun h => hx (by rw [eq_of_beq h, BEq.rfl])
        rw [if_neg hkx]
        simp [lookup]
      · have hl : ∀ tail : Index κ α, lookup ((x, items) :: tail) k = lookup tail k := by
          intro tail
          simp [lookup, hk]
        rw [hl, hl]
        exact ih

omit [BEq κ] [BEq α] in
@[simp] theorem keys_cons (key : κ) (items : List α) (rest : Index κ α) :
    keys ((key, items) :: rest) = key :: keys rest := rfl

/-- A new key comes last. -/
theorem keys_file [LawfulBEq κ] (index : Index κ α) (key : κ) (item : α) :
    (index.file key item).keys =
      if index.keys.contains key then index.keys else index.keys ++ [key] := by
  induction index with
  | nil => rfl
  | cons row rest ih =>
    obtain ⟨x, items⟩ := row
    rw [file]
    by_cases hx : (x == key) = true
    · rw [if_pos hx, keys_cons, keys_cons, List.contains_cons, BEq.symm hx, Bool.true_or,
        if_pos rfl]
    · rw [if_neg hx, keys_cons, keys_cons, ih, List.contains_cons,
        Bool.eq_false_iff.2 fun h => hx (BEq.symm h), Bool.false_or]
      split <;> rfl

end Index

end Strips
