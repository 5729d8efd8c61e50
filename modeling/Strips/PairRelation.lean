/-!
# Symmetric relations

Which facts exclude each other, and which actions do, are symmetric relations on finitely many
things. A relation is kept by rows: each related thing with its partners, so that a question looks
at one row only. A pair stands in the rows of both of its members.

Things are compared with `==`, which for actions is coarser than equality.

## Main definitions

* `pairsWithin` – the pairs of a list, each thing with itself included.
* `PairRelation.add`, `PairRelation.contains` – the relation as a set of unordered pairs.
* `PairRelation.pairs` – each pair once; a thing may be related to itself.

## Main results

* `PairRelation.contains_add` – adding a pair relates its members, and nothing else.
* `PairRelation.IsSymm.add` – relations made by adding pairs are symmetric.
-/

namespace Strips

/-- Each thing of a list with itself and with those after it. -/
def pairsWithin {α : Type} : List α → List (α × α)
  | [] => []
  | a :: rest => (a :: rest).map (fun b => (a, b)) ++ pairsWithin rest

/-- Up to order, every two things of a list stand in a pair. -/
theorem any_pairsWithin {α : Type} {r : α → α → Bool} (hr : ∀ a b, r a b = r b a) {l : List α} :
    ((pairsWithin l).any fun p => r p.1 p.2) = true ↔ ∃ a ∈ l, ∃ b ∈ l, r a b = true := by
  induction l with
  | nil => simp [pairsWithin]
  | cons x rest ih =>
    rw [pairsWithin, List.any_append, Bool.or_eq_true, ih, List.any_map, List.any_eq_true]
    constructor
    · rintro (⟨b, hb, h⟩ | ⟨a, ha, b, hb, h⟩)
      · exact ⟨x, List.mem_cons_self, b, hb, h⟩
      · exact ⟨a, List.mem_cons_of_mem x ha, b, List.mem_cons_of_mem x hb, h⟩
    · rintro ⟨a, ha, b, hb, h⟩
      rcases List.mem_cons.1 ha with rfl | ha'
      · exact .inl ⟨b, hb, h⟩
      · rcases List.mem_cons.1 hb with rfl | hb'
        · exact .inl ⟨a, ha, (hr _ _).trans h⟩
        · exact .inr ⟨a, ha', b, hb', h⟩

/-- A symmetric relation on things compared with `==`. -/
structure PairRelation (α : Type) where
  /-- Each related thing, once, with its partners. -/
  rows : List (α × List α) := []
  deriving Repr

namespace PairRelation

variable {α : Type} [BEq α]

/-- What stands in the row of `a`. -/
def partnersIn (rows : List (α × List α)) (a : α) : List α :=
  ((rows.find? (·.1 == a)).map Prod.snd).getD []

/-- The things related to `a`. -/
def partners (r : PairRelation α) (a : α) : List α := partnersIn r.rows a

/-- Whether two things are related. -/
def contains (r : PairRelation α) (a b : α) : Bool := (r.partners a).any (· == b)

/-- Put `b` into the row of `a`. -/
def addToRow (a b : α) : List (α × List α) → List (α × List α)
  | [] => [(a, [b])]
  | (x, bs) :: rest => if x == a then (x, b :: bs) :: rest else (x, bs) :: addToRow a b rest

/-- Relate two things. -/
def add (r : PairRelation α) (a b : α) : PairRelation α :=
  if r.contains a b then r
  else if a == b then ⟨addToRow a b r.rows⟩
  else ⟨addToRow b a (addToRow a b r.rows)⟩

/-! ### What adding a pair does -/

theorem contains_eq (r : PairRelation α) (a b : α) :
    r.contains a b = (partnersIn r.rows a).any (· == b) := rfl

theorem partnersIn_addToRow [EquivBEq α] (a b c d : α) (rows : List (α × List α)) :
    ((partnersIn (addToRow a b rows) c).any (· == d)) =
      ((partnersIn rows c).any (· == d) || (a == c && b == d)) := by
  induction rows with
  | nil =>
    simp only [addToRow, partnersIn, List.find?]
    cases a == c <;> simp
  | cons row rest ih =>
    obtain ⟨x, bs⟩ := row
    rw [addToRow]
    by_cases hxa : (x == a) = true
    · rw [if_pos hxa]
      simp only [partnersIn, List.find?]
      by_cases hxc : (x == c) = true
      · have hac : (a == c) = true := BEq.trans (BEq.symm hxa) hxc
        simp [hxc, hac, Bool.or_comm]
      · have hac : (a == c) = false := by
          refine Bool.eq_false_iff.2 fun h => hxc (BEq.trans hxa h)
        simp [hxc, hac]
    · rw [if_neg hxa]
      simp only [partnersIn, List.find?]
      by_cases hxc : (x == c) = true
      · have hac : (a == c) = false :=
          Bool.eq_false_iff.2 fun h => hxa (BEq.trans hxc (BEq.symm h))
        simp [hxc, hac]
      · simp only [hxc]
        exact ih

theorem contains_congr [EquivBEq α] (r : PairRelation α) {a b c d : α} (hac : (a == c) = true)
    (hbd : (b == d) = true) : r.contains a b = r.contains c d := by
  have hrow : (fun row : α × List α => row.1 == a) = fun row => row.1 == c :=
    funext fun row => BEq.congr_right hac
  have hmember : (fun x : α => x == b) = fun x => x == d := funext fun x => BEq.congr_right hbd
  rw [contains, contains, partners, partners, partnersIn, partnersIn, hrow, hmember]

/-- Whether the order of two things does not matter, as in every relation that was made by adding
pairs. -/
def IsSymm (r : PairRelation α) : Prop := ∀ a b, r.contains a b = r.contains b a

theorem isSymm_empty : ({} : PairRelation α).IsSymm := fun _ _ => rfl

/-- Adding a pair relates its two members, in both orders, and nothing else. -/
theorem contains_add [EquivBEq α] (r : PairRelation α) (hr : r.IsSymm) (a b c d : α) :
    (r.add a b).contains c d =
      (r.contains c d || (a == c && b == d) || (b == c && a == d)) := by
  rw [add]
  split
  · rename_i h
    by_cases hcd : (a == c && b == d) = true
    · obtain ⟨hac, hbd⟩ := Bool.and_eq_true_iff.1 hcd
      rw [← r.contains_congr hac hbd, h, Bool.true_or, Bool.true_or]
    · by_cases hdc : (b == c && a == d) = true
      · obtain ⟨hbc, had⟩ := Bool.and_eq_true_iff.1 hdc
        rw [← r.contains_congr hbc had, hr b a, h, Bool.true_or, Bool.true_or]
      · rw [Bool.eq_false_iff.2 hcd, Bool.eq_false_iff.2 hdc, Bool.or_false, Bool.or_false]
  · split
    · rename_i hab
      rw [contains_eq, partnersIn_addToRow, ← contains_eq, Bool.or_assoc,
        BEq.congr_left (c := c) hab, BEq.congr_left (c := d) hab, Bool.or_self]
    · rw [contains_eq, partnersIn_addToRow, partnersIn_addToRow, ← contains_eq]

theorem IsSymm.add [EquivBEq α] {r : PairRelation α} (hr : r.IsSymm) (a b : α) :
    (r.add a b).IsSymm := fun c d => by
  rw [contains_add r hr, contains_add r hr, hr c d, Bool.or_assoc, Bool.or_assoc,
    Bool.or_comm (a == c && b == d), Bool.and_comm (b == c), Bool.and_comm (a == c)]

/-! ### The pairs of a relation -/

/-- The pairs of the rows whose second member has no row among `earlier`. -/
def pairsAfter (earlier : List α) : List (α × List α) → List (α × α)
  | [] => []
  | (x, bs) :: rest =>
    ((bs.filter fun b => !earlier.contains b).map fun b => (x, b)) ++ pairsAfter (x :: earlier) rest

/-- The pairs, each once. -/
def pairs (r : PairRelation α) : List (α × α) := pairsAfter [] r.rows

/-- The number of pairs. -/
def size (r : PairRelation α) : Nat := r.pairs.length

/-- Whether two relations have the same pairs. -/
def same (r s : PairRelation α) : Bool :=
  r.size == s.size && r.pairs.all fun (a, b) => s.contains a b

/-- The printed form of a relation. -/
def text (r : PairRelation α) : String := s!"MutexRelation(n_pairs={r.size})"

end PairRelation

end Strips
