import Mathlib.Data.List.Induction
import Strips.Proofs.Classes
import Strips.Proofs.Parsing

/-!
# What written statements come to

Variables and constants that are read become cells, and equal literals are kept once. This module
says what comes of it in the words of the text: an action can be built exactly if it uses its
variables as it may, and the schema then says what was written.

Cells are made while reading goes on, so what is known of a literal is said of the vocabulary after
it, and kept by all that come later.

## Main definitions

* `Vocabulary.Names` – the cells of the variables, each of its own.
* `Vocabulary.Spells` – a literal is one that was written.

## Main results

* `WrittenLiteral.fact?_eq_some_iff` – facts.
* `WrittenAction.exists_build_iff` – which actions can be built.
* `WrittenAction.says_of_build` – what their schemas say.

## An example

    go :: at(X), distinct(X, b) => not at(X), at(b).

The variable gets the cell 0 when it is met first, and each occurrence of the constant gets a cell
that is bound to it, which are the cells 1 and 2. So the precondition and the denied effect are
`at` of the cell 0, the constraint is about the cells 0 and 1, and the other effect is `at` of the
cell 2. The action that is built has one parameter, the cell 0, and one pair, in which the cells 0
and 1 are marked. With all values put in, it says `at` of the cell 0, `at(b)` and that the cell 0 is
not `b`, which is what was written if the cell 0 is read as `X`.

## Implementation notes

A literal that was read is compared with the one that was written through `Literal.resolve`: the
constants are put in, and what is left are the cells of variables. `Vocabulary.cell` gives each
variable its cell, so the result is the written literal with cells for its variables
(`WrittenLiteral.over`). All later statements are equations between lists of such literals, and the
arena occurs in them no more.

A set of literals leaves out what it has, and so do the cells that are collected from it. So these
equations hold up to repetitions, which is what `eraseDups` is for. The order matters: parameters
are numbered as their variables are met, and printed forms list literals as they were written.

Two occurrences of a constant are two cells, and two of a variable are one. The only place where
this can be seen is a constraint, which is refused if its two arguments are one cell. It is why
`Vocabulary.Spells` has a clause about pairs.
-/

namespace Strips

/-! ### Repetitions

`eraseDups` keeps the first of equal elements. Lists grow at their ends here, when a literal is put
into a set or a variable is met, so the inductions go from the end: what comes last counts if it is
new. -/

section Repetitions

variable {α β : Type} [DecidableEq α] [DecidableEq β]

/-- What comes last counts if it did not come before. -/
theorem eraseDups_concat (xs : List α) (x : α) :
    (xs ++ [x]).eraseDups = if x ∈ xs then xs.eraseDups else xs.eraseDups ++ [x] := by
  rw [List.eraseDups_append, List.removeAll]
  split
  · rename_i hx
    simp [hx]
  · rename_i hx
    simp [hx, List.eraseDups_cons]

/-- What is left has no repetitions. -/
theorem nodup_eraseDups (xs : List α) : xs.eraseDups.Nodup := by
  induction xs using List.reverseRecOn with
  | nil => exact .nil
  | append_singleton xs x ih =>
    rw [eraseDups_concat]
    split
    · exact ih
    · rename_i hx
      refine ih.append (List.nodup_singleton x) fun y hy hyx => hx ?_
      rw [← List.mem_singleton.1 hyx]
      exact List.mem_eraseDups.1 hy

/-- Nothing is left out if there are none. -/
theorem eraseDups_eq_self {xs : List α} (h : xs.Nodup) : xs.eraseDups = xs := by
  induction xs using List.reverseRecOn with
  | nil => rfl
  | append_singleton xs x ih =>
    obtain ⟨hxs, -, hdisjoint⟩ := List.nodup_append.1 h
    have hx : x ∉ xs := fun hx => hdisjoint x hx x (List.mem_singleton_self x) rfl
    rw [eraseDups_concat, if_neg hx, ih hxs]

/-- Repetitions may be left out of the front of a list before those of the whole list are. -/
theorem eraseDups_eraseDups_append (xs ys : List α) :
    (xs.eraseDups ++ ys).eraseDups = (xs ++ ys).eraseDups := by
  induction ys using List.reverseRecOn with
  | nil =>
    induction xs using List.reverseRecOn with
    | nil => rfl
    | append_singleton xs x ih =>
      rw [List.append_nil, List.append_nil] at ih ⊢
      rw [eraseDups_concat]
      split
      · exact ih
      · rename_i hx
        rw [eraseDups_concat, if_neg (mt List.mem_eraseDups.1 hx), ih]
  | append_singleton ys y ih =>
    rw [← List.append_assoc, ← List.append_assoc, eraseDups_concat, eraseDups_concat, ih]
    simp only [List.mem_append, List.mem_eraseDups]

/-- And out of its end. -/
theorem append_eraseDups_eraseDups (xs ys : List α) :
    (xs ++ ys.eraseDups).eraseDups = (xs ++ ys).eraseDups := by
  induction ys using List.reverseRecOn with
  | nil => rfl
  | append_singleton ys y ih =>
    rw [eraseDups_concat, ← List.append_assoc, eraseDups_concat (xs ++ ys)]
    split
    · rename_i hy
      rw [if_pos (List.mem_append_right xs hy), ih]
    · rename_i hy
      rw [← List.append_assoc, eraseDups_concat, ih]
      simp only [List.mem_append, List.mem_eraseDups]

/-- What comes after may be left out if all of it came before. -/
theorem eraseDups_append_of_subset {xs ys : List α} (h : ys ⊆ xs) :
    (xs ++ ys).eraseDups = xs.eraseDups := by
  induction ys using List.reverseRecOn with
  | nil => rw [List.append_nil]
  | append_singleton ys y ih =>
    have hy : y ∈ xs ++ ys := List.mem_append_left ys (h (by simp))
    rw [← List.append_assoc, eraseDups_concat, if_pos hy,
      ih fun z hz => h (List.mem_append_left _ hz)]

/-- To collect from what is there more than once adds nothing. -/
theorem eraseDups_flatMap (f : α → List β) (xs : List α) :
    (xs.eraseDups.flatMap f).eraseDups = (xs.flatMap f).eraseDups := by
  induction xs using List.reverseRecOn with
  | nil => rfl
  | append_singleton xs x ih =>
    rw [eraseDups_concat, List.flatMap_append, List.flatMap_singleton]
    split
    · rename_i hx
      rw [ih, eraseDups_append_of_subset]
      exact fun y hy => List.mem_flatMap.2 ⟨x, hx, hy⟩
    · rw [List.flatMap_append, List.flatMap_singleton, ← eraseDups_eraseDups_append, ih,
        eraseDups_eraseDups_append]

/-- To collect repetitions adds nothing either. -/
theorem flatMap_eraseDups {γ : Type} (f : γ → List β) (xs : List γ) :
    (xs.flatMap fun x => (f x).eraseDups).eraseDups = (xs.flatMap f).eraseDups := by
  induction xs using List.reverseRecOn with
  | nil => rfl
  | append_singleton xs x ih =>
    rw [List.flatMap_append, List.flatMap_append, List.flatMap_singleton, List.flatMap_singleton,
      append_eraseDups_eraseDups, ← eraseDups_eraseDups_append, ih, eraseDups_eraseDups_append]

/-- A function that keeps elements apart keeps repetitions. -/
theorem map_eraseDups {f : α → β} {xs : List α} (hf : ∀ x ∈ xs, ∀ y ∈ xs, f x = f y → x = y) :
    (xs.map f).eraseDups = xs.eraseDups.map f := by
  induction xs using List.reverseRecOn with
  | nil => rfl
  | append_singleton xs x ih =>
    have hmem : f x ∈ xs.map f ↔ x ∈ xs := by
      refine ⟨fun h => ?_, fun h => List.mem_map_of_mem h⟩
      obtain ⟨y, hy, hxy⟩ := List.mem_map.1 h
      exact hf y (List.mem_append_left _ hy) x (by simp) hxy ▸ hy
    have ih := ih fun y hy z hz => hf y (List.mem_append_left _ hy) z (List.mem_append_left _ hz)
    rw [List.map_append, List.map_singleton, eraseDups_concat, eraseDups_concat, ih]
    simp only [hmem]
    split
    · rfl
    · rw [List.map_append, List.map_singleton]

end Repetitions

/-! ### Sets of literals

A set of literals is a list without repetitions, where two literals are the same if they say the
same. It is described by what its members say. -/

namespace LiteralSet

variable {a : Arena}

/-- A set contains a literal if one of its members says the same. Constant literals are looked at
first, but it does not matter where the member is found. -/
theorem contains_iff {s : LiteralSet} {l : Literal} :
    s.contains a l = true ↔ l.resolve a ∈ s.members.map (·.resolve a) := by
  rw [contains, find?, Option.isSome_or, Bool.or_eq_true, List.find?_isSome, List.find?_isSome,
    List.mem_map]
  constructor
  · rintro (⟨m, hm, hsame⟩ | ⟨m, hm, hsame⟩)
    · exact ⟨m, (List.mem_filter.1 hm).1, beq_iff_eq.1 hsame⟩
    · exact ⟨m, (List.mem_filter.1 hm).1, beq_iff_eq.1 hsame⟩
  · rintro ⟨m, hm, hsame⟩
    cases hconstant : m.isConstant a with
    | true => exact .inl ⟨m, List.mem_filter.2 ⟨hm, hconstant⟩, beq_iff_eq.2 hsame⟩
    | false => exact .inr ⟨m, List.mem_filter.2 ⟨hm, by simp [hconstant]⟩, beq_iff_eq.2 hsame⟩

/-- What is put into a set comes last, unless it is there. -/
theorem map_resolve_insert (s : LiteralSet) (l : Literal) :
    (s.insert a l).members.map (·.resolve a) =
      if l.resolve a ∈ s.members.map (·.resolve a) then s.members.map (·.resolve a)
      else s.members.map (·.resolve a) ++ [l.resolve a] := by
  rw [insert]
  by_cases h : l.resolve a ∈ s.members.map (·.resolve a)
  · rw [if_pos (contains_iff.2 h), if_pos h]
  · rw [if_neg (mt contains_iff.1 h), if_neg h, List.map_append, List.map_singleton]

/-- A set keeps what its literals say, once. -/
theorem map_resolve_ofList (ls : List Literal) :
    (ofList a ls).members.map (·.resolve a) = (ls.map (·.resolve a)).eraseDups := by
  induction ls using List.reverseRecOn with
  | nil => rfl
  | append_singleton ls l ih =>
    have hstep : ofList a (ls ++ [l]) = (ofList a ls).insert a l := List.foldl_concat ..
    rw [hstep, map_resolve_insert, ih, List.map_append, List.map_singleton, eraseDups_concat]
    simp only [List.mem_eraseDups]

end LiteralSet

/-! ### Vocabularies

Each variable has one free cell for as long as a statement is read, and each constant a bound cell
for every occurrence. While reading goes on a vocabulary grows: cells are added, and those that are
there stay what they are. So what was found out about a literal when it was read holds in the end.
-/

namespace Vocabulary

variable {u v w : Vocabulary}

/-- The cell of a variable. -/
def cell (v : Vocabulary) (x : String) : Nat := (v.known.lookup x).getD 0

/-- The variables have free cells, each of its own. -/
structure Names (v : Vocabulary) : Prop extends v.Sound where
  /-- Nothing is known of a variable, … -/
  free : ∀ x i, v.known.lookup x = some i → v.arena.value? i = none
  /-- … and two variables are two cells. -/
  injective : ∀ x y i, v.known.lookup x = some i → v.known.lookup y = some i → x = y

/-- Nothing has been read yet. -/
theorem names_empty : Names {} := ⟨sound_empty, nofun, nofun⟩

/-- The cells of a vocabulary are neither linked nor marked, so its arena is sound. -/
theorem Names.sound_arena (h : v.Names) : v.arena.Sound :=
  h.fresh.allNew.sound (fun i j hj => by simp [h.fresh.partners] at hj)
    fun i hi => by simp [h.fresh.partners] at hi

/-- A vocabulary that another one may become: variables keep their cells, and cells their values. -/
structure Grows (v w : Vocabulary) : Prop where
  /-- The later vocabulary is one, too. -/
  names : w.Names
  /-- Cells are only added. -/
  size_le : v.arena.size ≤ w.arena.size
  /-- A variable that is known has its cell for good. -/
  lookup : ∀ x i, v.known.lookup x = some i → w.known.lookup x = some i
  /-- A cell that is there is bound for good, or free. -/
  value? : ∀ i < v.arena.size, w.arena.value? i = v.arena.value? i

/-! A vocabulary may grow by nothing, and in steps. -/
theorem Names.grows (h : v.Names) : v.Grows v :=
  ⟨h, Nat.le_refl _, fun _ _ hx => hx, fun _ _ => rfl⟩

theorem Grows.trans (h : u.Grows v) (h' : v.Grows w) : u.Grows w where
  names := h'.names
  size_le := Nat.le_trans h.size_le h'.size_le
  lookup x i hx := h'.lookup x i (h.lookup x i hx)
  value? i hi := (h'.value? i (Nat.lt_of_lt_of_le hi h.size_le)).trans (h.value? i hi)

/-- The term is that of an argument: the cell of a variable, or a cell with the constant. -/
inductive SpellsTerm (v : Vocabulary) : Term → String → Prop
  | free {x i} : isVariable x = true → v.known.lookup x = some i → SpellsTerm v (.cell i) x
  | bound {x i} : isVariable x = false → i < v.arena.size → v.arena.value? i = some x →
      SpellsTerm v (.cell i) x

theorem SpellsTerm.exists_cell {t : Term} {x : String} (h : v.SpellsTerm t x) :
    ∃ i, t = .cell i := by
  cases h with
  | free => exact ⟨_, rfl⟩
  | bound => exact ⟨_, rfl⟩

theorem SpellsTerm.lookup {i : Nat} {x : String} (h : v.SpellsTerm (.cell i) x)
    (hx : isVariable x = true) : v.known.lookup x = some i := by
  cases h with
  | free _ hi => exact hi
  | bound hno => rw [hno] at hx; cases hx

/-- What a term says is kept when the vocabulary grows. -/
theorem SpellsTerm.mono {t : Term} {x : String} (h : v.SpellsTerm t x) (hw : v.Grows w) :
    w.SpellsTerm t x := by
  cases h with
  | free hx hi => exact .free hx (hw.lookup _ _ hi)
  | bound hx hi hvalue =>
    exact .bound hx (Nat.lt_of_lt_of_le hi hw.size_le) ((hw.value? _ hi).trans hvalue)

/-- A new cell leaves the others as they were. -/
theorem Names.newCell (h : v.Names) (value : Option String) :
    (v.arena.newCell value).2.size = v.arena.size + 1 ∧
      (v.arena.newCell value).2.value? v.arena.size = value ∧
      ∀ i < v.arena.size, (v.arena.newCell value).2.value? i = v.arena.value? i := by
  have hb := h.sound_arena.newCell value 0
  refine ⟨hb.size, by rw [hb.value?, Function.update_self], fun i hi => ?_⟩
  rw [hb.value?, Function.update_of_ne (Nat.ne_of_lt hi)]

/-- Each occurrence of a constant has a cell of its own. -/
theorem term_of_constant {x : String} (hx : isVariable x = false) :
    v.term x = (.cell v.arena.size, ⟨v.known, (v.arena.newCell (some x)).2⟩) := by
  rw [Vocabulary.term]
  exact if_neg (by rw [← isVariable, hx]; exact Bool.false_ne_true)

/-- **A term** that is read is that of its argument. -/
theorem Names.term (h : v.Names) (x : String) :
    v.Grows (v.term x).2 ∧ (v.term x).2.SpellsTerm (v.term x).1 x := by
  have hsound := (h.toSound.term x).1
  cases hx : isVariable x with
  | true =>
    cases hl : v.known.lookup x with
    | some i =>
      have hterm : v.term x = (.cell i, v) := by
        rw [Vocabulary.term, hl]
        exact if_pos hx
      rw [hterm]
      exact ⟨h.grows, .free hx hl⟩
    | none =>
      -- a variable that was not met before gets a new free cell
      have hterm : v.term x =
          (.cell v.arena.size, ⟨v.known ++ [(x, v.arena.size)], (v.arena.newCell none).2⟩) := by
        rw [Vocabulary.term, hl]
        exact if_pos hx
      rw [hterm] at hsound ⊢
      obtain ⟨hsize, hnew, hold⟩ := h.newCell none
      have hlookup : ∀ y i, (v.known ++ [(x, v.arena.size)]).lookup y = some i ↔
          v.known.lookup y = some i ∨ y = x ∧ i = v.arena.size := by
        intro y i
        have hlast : [(x, v.arena.size)].lookup y = some i ↔ y = x ∧ i = v.arena.size := by
          rw [List.lookup_cons]
          by_cases hy : y = x
          · simp [hy, eq_comm]
          · simp [hy, beq_false_of_ne hy]
        rw [List.lookup_append, Option.or_eq_some_iff, hlast]
        constructor
        · exact fun hy => hy.imp_right And.right
        · rintro (hy | ⟨rfl, rfl⟩)
          · exact .inl hy
          · exact .inr ⟨hl, rfl, rfl⟩
      refine ⟨⟨⟨hsound.sound, fun y i hy => ?_, fun y z i hy hz => ?_⟩, hsound.size_le,
        fun y i hy => (hlookup y i).2 (.inl hy), hold⟩,
        .free hx ((hlookup x _).2 (.inr ⟨rfl, rfl⟩))⟩
      · rcases (hlookup y i).1 hy with hy | ⟨-, rfl⟩
        · exact (hold i (h.known y i hy)).trans (h.free y i hy)
        · exact hnew
      · rcases (hlookup y i).1 hy with hy' | ⟨hyx, hi⟩ <;>
          rcases (hlookup z i).1 hz with hz' | ⟨hzx, hi'⟩
        · exact h.injective y z i hy' hz'
        · exact absurd (h.known y i hy') (by omega)
        · exact absurd (h.known z i hz') (by omega)
        · exact hyx.trans hzx.symm
  | false =>
    rw [term_of_constant hx] at hsound ⊢
    obtain ⟨hsize, hnew, hold⟩ := h.newCell (some x)
    refine ⟨⟨⟨hsound.sound, fun y i hy => (hold i (h.known y i hy)).trans (h.free y i hy),
      h.injective⟩, hsound.size_le, fun _ _ hy => hy, hold⟩, .bound hx ?_ hnew⟩
    rw [hsize]
    exact Nat.lt_succ_self _

/-- What holds of each item when it has been read, and later, holds of all of them in the end. -/
theorem Names.each {β W : Type} {elaborate : Vocabulary → W → β × Vocabulary}
    {R : Vocabulary → β → W → Prop} (hmono : ∀ {v w x y}, R v x y → v.Grows w → R w x y)
    (hstep : ∀ {v}, v.Names → ∀ y,
      v.Grows (elaborate v y).2 ∧ R (elaborate v y).2 (elaborate v y).1 y)
    (h : v.Names) (ys : List W) : v.Grows (v.each elaborate ys).2 ∧
      List.Forall₂ (R (v.each elaborate ys).2) (v.each elaborate ys).1 ys := by
  induction ys generalizing v with
  | nil => exact ⟨h.grows, .nil⟩
  | cons y ys ih =>
    obtain ⟨hgrows, hy⟩ := hstep h y
    obtain ⟨hgrows', hys⟩ := ih hgrows.names
    exact ⟨hgrows.trans hgrows', .cons (hmono hy hgrows') hys⟩

/-- The literal is one that was written. Two arguments have one cell only if they are one
variable. -/
structure Spells (v : Vocabulary) (l : Literal) (w : WrittenLiteral) : Prop where
  name : l.name = w.name
  terms : List.Forall₂ v.SpellsTerm l.terms w.arguments
  apart : ∀ x y t, w.arguments = [x, y] → l.terms = [t, t] → isVariable x = true ∧ x = y

/-- And so is what a literal says. -/
theorem Spells.mono {l : Literal} {m : WrittenLiteral} (h : v.Spells l m) (hw : v.Grows w) :
    w.Spells l m :=
  ⟨h.name, h.terms.imp fun _ _ ht => ht.mono hw, h.apart⟩

/-- Two terms that are read in a row have one cell only if they are one variable: a variable that is
known has a free cell, and for a constant a new cell is made. -/
theorem Names.ne_of_ne (h : v.Names) {x y : String} {t : Term} (ht : (v.term x).1 = t)
    (hu : ((v.term x).2.term y).1 = t) : isVariable x = true ∧ x = y := by
  obtain ⟨hgrows, hx⟩ := h.term x
  obtain ⟨hgrows', hy⟩ := hgrows.names.term y
  -- the first term is looked at where both are known
  have hx' := hx.mono hgrows'
  rw [ht] at hx hx'
  rw [hu] at hy
  cases hx' with
  | @free _ i hxv hi =>
    cases hy with
    | free hyv hj => exact ⟨hxv, hgrows'.names.injective x y i hi hj⟩
    | bound hyv hj hvalue =>
      rw [hgrows'.names.free x i hi] at hvalue
      cases hvalue
  | @bound _ i hxv hi hvalue =>
    cases hy with
    | free hyv hj =>
      rw [hgrows'.names.free y i hj] at hvalue
      cases hvalue
    | bound hyv hj hvalue' =>
      -- the second cell was made after the first one
      rw [term_of_constant hyv] at hu
      cases hx with
      | free hxv' => rw [hxv] at hxv'; cases hxv'
      | bound _ hlt => exact absurd hlt (by cases hu; exact Nat.lt_irrefl _)

/-- **A literal** that is read is that which is written. -/
theorem Names.literal (h : v.Names) (m : WrittenLiteral) :
    v.Grows (v.literal m).2 ∧ (v.literal m).2.Spells (v.literal m).1 m := by
  obtain ⟨hgrows, hterms⟩ := Names.each (R := SpellsTerm) (fun ht hw => ht.mono hw)
    (fun {v} (hv : v.Names) x => hv.term x) h m.arguments
  refine ⟨hgrows, rfl, hterms, fun x y t hxy ht => ?_⟩
  have hcells : (v.each Vocabulary.term m.arguments).1 = [t, t] := ht
  rw [hxy] at hcells
  obtain ⟨hx, hy⟩ := List.cons.inj hcells
  exact h.ne_of_ne hx (List.cons.inj hy).1

/-- **An effect** that is read is that which is written, and it is denied if it was. -/
theorem Names.effect (h : v.Names) (e : WrittenEffect) :
    v.Grows (v.effect e).2 ∧ (v.effect e).1.1 = e.denied ∧
      (v.effect e).2.Spells (v.effect e).1.2 e.literal :=
  ⟨(h.literal e.literal).1, rfl, (h.literal e.literal).2⟩

/-! ### What is said

The cells of a vocabulary are not linked, so each is its own root. What a literal says is then read
off its arguments, one by one. -/

/-- With its value put in, a term is the constant or the cell of the variable. -/
theorem Names.resolve_term (h : v.Names) {t : Term} {x : String} (ht : v.SpellsTerm t x) :
    t.resolve v.arena = writtenTerm v.cell x := by
  cases ht with
  | @free _ i hx hi =>
    rw [Term.resolve, h.free x i hi, h.fresh.allNew.root, writtenTerm, if_pos hx, cell, hi]
    rfl
  | @bound _ i hx _ hvalue =>
    rw [Term.resolve, hvalue, writtenTerm, hx]
    rfl

/-- **With its values put in**, a literal is what was written, over the cells of the variables. -/
theorem Names.resolve (h : v.Names) {l : Literal} {m : WrittenLiteral} (hl : v.Spells l m) :
    l.resolve v.arena = m.over v.cell := by
  have hterms : l.terms.map (·.resolve v.arena) = m.arguments.map (writtenTerm v.cell) := by
    rw [← List.forall₂_eq_eq_eq, List.forall₂_map_left_iff, List.forall₂_map_right_iff]
    exact hl.terms.imp fun _ _ ht => h.resolve_term ht
  rw [Literal.resolve, WrittenLiteral.over, hl.name, hterms]

/-- Variables have no values, and constants are their own. -/
theorem Names.value?_term (h : v.Names) {t : Term} {x : String} (ht : v.SpellsTerm t x) :
    t.value? v.arena = if isVariable x then none else some x := by
  cases ht with
  | @free _ i hx hi => rw [Term.value?, h.free x i hi, if_pos hx]
  | @bound _ i hx _ hvalue => rw [Term.value?, hvalue, hx]; rfl

/-- So are the values of a literal. -/
theorem Names.values (h : v.Names) {l : Literal} {m : WrittenLiteral} (hl : v.Spells l m) :
    l.values v.arena = m.arguments.map fun x => if isVariable x then none else some x := by
  rw [Literal.values, ← List.forall₂_eq_eq_eq, List.forall₂_map_left_iff,
    List.forall₂_map_right_iff]
  exact hl.terms.imp fun _ _ ht => h.value?_term ht

/-- The variables of a literal that was read are known. -/
theorem Spells.exists_lookup {l : Literal} {m : WrittenLiteral} (h : v.Spells l m) {x : String}
    (hx : x ∈ m.vars) : ∃ i, v.known.lookup x = some i := by
  obtain ⟨hx, hvariable⟩ := List.mem_filter.1 hx
  obtain ⟨t, -, ht⟩ := exists_of_mem_right h.terms hx
  obtain ⟨i, rfl⟩ := ht.exists_cell
  exact ⟨i, ht.lookup hvariable⟩

end Vocabulary

/-! ### Facts -/

/-- All arguments have values if none is a variable. -/
theorem mapM_constants_eq_some_iff : ∀ {xs ys : List String},
    (xs.map fun x => if isVariable x then none else some x).mapM id = some ys ↔
      xs.filter isVariable = [] ∧ ys = xs
  | [], ys => by
    rw [List.map_nil, List.mapM_nil, Option.pure_def, Option.some.injEq, List.filter_nil]
    exact ⟨fun h => ⟨rfl, h.symm⟩, fun h => h.2.symm⟩
  | x :: xs, ys => by
    rw [List.map_cons, List.mapM_cons, List.filter_cons]
    cases hx : isVariable x with
    | true => simp
    | false =>
      simp only [Bool.false_eq_true, if_false, id_eq, Option.bind_eq_bind, Option.bind_some,
        Option.bind_eq_some_iff, mapM_constants_eq_some_iff, Option.pure_def, Option.some.injEq]
      constructor
      · rintro ⟨_, ⟨hvars, rfl⟩, rfl⟩
        exact ⟨hvars, rfl⟩
      · rintro ⟨hvars, rfl⟩
        exact ⟨xs, ⟨hvars, rfl⟩, rfl⟩

/-- **A literal is a fact** exactly if it has no variables. -/
theorem WrittenLiteral.fact?_eq_some_iff {l : WrittenLiteral} {f : Fact} :
    l.fact? = some f ↔ l.vars = [] ∧ f = l.fact := by
  obtain ⟨hgrows, hspells⟩ := Vocabulary.names_empty.literal l
  rw [WrittenLiteral.fact?, Literal.fact?, hgrows.names.values hspells, Option.map_eq_some_iff]
  constructor
  · rintro ⟨ys, hys, rfl⟩
    obtain ⟨hvars, rfl⟩ := mapM_constants_eq_some_iff.1 hys
    exact ⟨hvars, rfl⟩
  · rintro ⟨hvars, rfl⟩
    exact ⟨l.arguments, mapM_constants_eq_some_iff.2 ⟨hvars, rfl⟩, rfl⟩

/-! ### Actions

An action takes its preconditions one by one. A constraint among them marks its two arguments as
distinct in the arena, and becomes a pair of the action; any other literal is put into the set of
preconditions. This can only fail at a constraint. -/

namespace Arena

/-- Marks do not change what terms say. -/
theorem AllNew.resolve_eq {a b : Arena} (ha : a.AllNew) (hb : b.AllNew)
    (hvalue : b.value? = a.value?) (l : Literal) : l.resolve b = l.resolve a := by
  have hterm : ∀ t : Term, t.resolve b = t.resolve a := by
    intro t
    cases t with
    | const v => rfl
    | cell i => rw [Term.resolve, Term.resolve, hvalue, ha.root, hb.root]
  rw [Literal.resolve, Literal.resolve]
  exact congrArg _ (List.map_congr_left fun t _ => hterm t)

/-- To mark two cells binds nothing. -/
theorem value?_markDistinct {a b : Arena} {i j : Nat} (h : a.markDistinct i j = .ok b) :
    b.value? = a.value? := by
  rw [markDistinct] at h
  split at h
  · cases h
  · split at h
    · cases h
    · obtain rfl := Except.ok.inj h
      exact (value?_mark _ j (·.insert i)).trans (value?_mark a i (·.insert j))

/-- Cells as they are made can be marked if they are different. -/
theorem AllNew.exists_markDistinct_iff {a : Arena} (h : a.AllNew) {i j : Nat} :
    (∃ b, a.markDistinct i j = .ok b) ↔ i ≠ j := by
  rw [Arena.markDistinct, h.scope, h.scope, h.root, h.root, if_neg (not_not.2 rfl)]
  by_cases hij : i = j
  · simp [hij]
  · simp [hij]

end Arena

/-- A constraint can be taken: its arguments are two different cells. -/
def Literal.Fits (l : Literal) : Prop := ∃ i j, l.terms = [.cell i, .cell j] ∧ i ≠ j

/-- Constraints fit if their arguments are not one variable. Two occurrences of a constant are two
cells. -/
theorem Vocabulary.Spells.fits_iff {v : Vocabulary} {l : Literal} {m : WrittenLiteral}
    (h : v.Spells l m) :
    l.Fits ↔ ∃ x y, m.arguments = [x, y] ∧ ¬(isVariable x = true ∧ x = y) := by
  obtain ⟨-, hterms, hapart⟩ := h
  constructor
  · rintro ⟨i, j, hij, hne⟩
    rw [hij] at hterms
    rcases hargs : m.arguments with _ | ⟨x, _ | ⟨y, _ | ⟨z, rest⟩⟩⟩ <;> rw [hargs] at hterms
    · cases hterms
    · cases hterms with | cons _ hterms => cases hterms
    · refine ⟨x, y, rfl, ?_⟩
      rintro ⟨hx, rfl⟩
      obtain ⟨hi, hterms⟩ := List.forall₂_cons.1 hterms
      obtain ⟨hj, -⟩ := List.forall₂_cons.1 hterms
      exact hne (Option.some.inj ((hi.lookup hx).symm.trans (hj.lookup hx)))
    · cases hterms with | cons _ hterms => cases hterms with | cons _ hterms => cases hterms
  · rintro ⟨x, y, hargs, hne⟩
    rw [hargs] at hterms
    rcases hl : l.terms with _ | ⟨t, _ | ⟨u, _ | ⟨w, rest⟩⟩⟩ <;> rw [hl] at hterms
    · cases hterms
    · cases hterms with | cons _ hterms => cases hterms
    · obtain ⟨ht, hterms⟩ := List.forall₂_cons.1 hterms
      obtain ⟨hu, -⟩ := List.forall₂_cons.1 hterms
      obtain ⟨i, rfl⟩ := ht.exists_cell
      obtain ⟨j, rfl⟩ := hu.exists_cell
      refine ⟨i, j, hl, ?_⟩
      rintro rfl
      exact hne (hapart x y (.cell i) hargs hl)
    · cases hterms with | cons _ hterms => cases hterms with | cons _ hterms => cases hterms

namespace Action

/-- Taking the preconditions is successful if all constraints fit. -/
theorem exists_addPreconditions_iff : ∀ {ls : List Literal} {a : Action} {arena : Arena},
    arena.AllNew → (∀ l ∈ ls, arena.Spans l.terms) →
      ((∃ b arena', a.addPreconditions arena ls = (.ok b, arena')) ↔
        ∀ l ∈ ls, l.name = distinctName → l.Fits)
  | [], a, arena, _, _ => by simp [addPreconditions]
  | l :: ls, a, arena, h, hls => by
    obtain ⟨hl, hls⟩ := List.forall_mem_cons.1 hls
    rw [addPreconditions, List.forall_mem_cons]
    by_cases hname : l.name = distinctName
    · rw [if_pos hname, imp_iff_right hname]
      split
      · rename_i s t hterms
        rw [hterms] at hl
        obtain ⟨i, hi, rfl⟩ := hl s List.mem_cons_self
        obtain ⟨j, hj, rfl⟩ := hl t (List.mem_cons_of_mem _ List.mem_cons_self)
        have hfits : l.Fits ↔ i ≠ j := by
          constructor
          · rintro ⟨k, m, hkm, hne⟩
            rw [hterms] at hkm
            cases hkm
            exact hne
          · exact fun hne => ⟨i, j, hterms, hne⟩
        rw [hfits, markPair, ← h.exists_markDistinct_iff]
      -- what follows is taken on the arena with the mark
        cases hmark : arena.markDistinct i j with
        | ok arena₁ =>
          obtain ⟨-, hnew, hsize, -⟩ := h.markDistinct hi hj hmark
          have ih := exists_addPreconditions_iff (a := { a with distinct := a.distinct ++
            [(.cell i, .cell j)] }) hnew fun m hm => (hls m hm).mono (Nat.le_of_eq hsize.symm)
          rw [and_iff_right ⟨arena₁, rfl⟩]
          exact ih
        | error e => simp
      · rename_i hterms
        have hfits : ¬l.Fits := by
          rintro ⟨i, j, hij, -⟩
          exact hterms _ _ hij
        simp [hfits]
    · rw [if_neg hname, and_iff_right fun heq => absurd heq hname]
      exact exists_addPreconditions_iff h hls

/-- The pairs of an action, as lists. -/
def pairs (a : Action) : List (List Term) := a.distinct.map fun p => [p.1, p.2]

/-- What taking preconditions gives an action that had those of a list before: the literals are
kept once, the constraints become pairs, and what terms say stays. -/
structure Took (a : Action) (arena : Arena) (done ls : List Literal) (b : Action) (arena' : Arena) :
    Prop where
  /-- Cells may be marked, but none are linked. -/
  allNew : arena'.AllNew
  /-- No cell is bound. -/
  value? : arena'.value? = arena.value?
  /-- The literals that are no constraints come after those that were taken before. -/
  preconditions : b.preconditions.members.map (·.resolve arena) =
    ((done ++ ls.filter (·.name != distinctName)).map (·.resolve arena)).eraseDups
  /-- Every constraint becomes a pair, also one that was taken before. -/
  pairs : b.pairs = a.pairs ++ (ls.filter (·.name == distinctName)).map (·.terms)
  name : b.name = a.name
  negative : b.negative = a.negative
  positive : b.positive = a.positive

/-- **Taking the preconditions**, one after the other. A constraint marks two cells of the arena,
which changes nothing in what the literals say, so those that were taken before say the same after
it. -/
theorem took_of_addPreconditions : ∀ {ls done : List Literal} {a : Action} {arena : Arena}
    {b : Action} {arena' : Arena}, arena.AllNew → (∀ l ∈ ls, arena.Spans l.terms) →
      a.preconditions.members.map (·.resolve arena) = (done.map (·.resolve arena)).eraseDups →
      a.addPreconditions arena ls = (.ok b, arena') → a.Took arena done ls b arena'
  | [], done, a, arena, b, arena', h, _, hdone, hrun => by
    rw [addPreconditions] at hrun
    cases hrun
    exact ⟨h, rfl, by simpa using hdone, by simp, rfl, rfl, rfl⟩
  | l :: ls, done, a, arena, b, arena', h, hls, hdone, hrun => by
    obtain ⟨hl, hls⟩ := List.forall_mem_cons.1 hls
    rw [addPreconditions] at hrun
    split at hrun
    · rename_i hname
      split at hrun
      · rename_i s t hterms
        split at hrun
        · rename_i arena₁ hmark
          rw [hterms] at hl
          obtain ⟨i, hi, rfl⟩ := hl s List.mem_cons_self
          obtain ⟨j, hj, rfl⟩ := hl t (List.mem_cons_of_mem _ List.mem_cons_self)
          obtain ⟨-, hnew, hsize, -⟩ := h.markDistinct hi hj hmark
          have hvalue := Arena.value?_markDistinct hmark
          have hsay := h.resolve_eq hnew hvalue
          have hdone' : a.preconditions.members.map (·.resolve arena₁) =
              (done.map (·.resolve arena₁)).eraseDups := by
            simp only [hsay]
            exact hdone
          have ih := took_of_addPreconditions
            (a := { a with distinct := a.distinct ++ [(.cell i, .cell j)] }) hnew
            (fun m hm => (hls m hm).mono (Nat.le_of_eq hsize.symm)) hdone' hrun
          refine ⟨ih.allNew, ih.value?.trans hvalue, ?_, ?_, ih.name, ih.negative, ih.positive⟩
          · have hpre := ih.preconditions
            simp only [hsay] at hpre
            rw [hpre, List.filter_cons_of_neg (by simp [hname])]
          · rw [ih.pairs, List.filter_cons_of_pos (by simp [hname]), List.map_cons, hterms]
            simp [Action.pairs]
        · cases hrun
      · cases hrun
    · rename_i hname
      have hdone' : (a.preconditions.insert arena l).members.map (·.resolve arena) =
          ((done ++ [l]).map (·.resolve arena)).eraseDups := by
        rw [LiteralSet.map_resolve_insert, hdone, List.map_append, List.map_singleton,
          eraseDups_concat]
        simp only [List.mem_eraseDups]
      have ih := took_of_addPreconditions h hls hdone' hrun
      refine ⟨ih.allNew, ih.value?, ?_, ?_, ih.name, ih.negative, ih.positive⟩
      · rw [ih.preconditions, List.filter_cons_of_pos (by simp [hname]), List.append_assoc,
          List.singleton_append]
      · rw [ih.pairs, List.filter_cons_of_neg (by simp [hname])]
        rfl

end Action

/-! ### Variables of actions

An action looks at the free cells of its literals twice: to see that its effects have none which its
preconditions have not, and to number its parameters. In both places a free cell stands for a
variable. -/

/-- The cells of a literal that are no constants are those that are left when values are put in. -/
theorem Arena.AllNew.freeCells_eq {a : Arena} (h : a.AllNew) (l : Literal) :
    l.freeCells a = (l.resolve a).cells.eraseDups := by
  rw [Literal.freeCells, Literal.cells, Literal.resolve, List.filterMap_map]
  refine congrArg List.eraseDups (List.filterMap_congr fun t _ => ?_)
  cases t with
  | const v => rfl
  | cell i =>
    have hconstant := h.isSome_value? i
    rw [Function.comp_apply, Term.resolve]
    cases hvalue : a.value? i with
    | none =>
      rw [hvalue] at hconstant
      simp [← hconstant, h.root]
    | some w =>
      rw [hvalue] at hconstant
      simp [← hconstant]

/-- The cells that a written literal has over some assignment of cells. -/
theorem WrittenLiteral.cells_over (cell : String → Nat) (m : WrittenLiteral) :
    (m.over cell).cells = m.vars.map cell := by
  rw [Literal.cells, WrittenLiteral.over, List.filterMap_map, vars, ← List.filterMap_eq_map,
    List.filterMap_filter]
  refine List.filterMap_congr fun x _ => ?_
  rw [Function.comp_apply, writtenTerm]
  cases isVariable x <;> rfl

/-- The free cells of a set of literals, in the words of the text. -/
theorem LiteralSet.freeCells_eq {a : Arena} (h : a.AllNew) {s : LiteralSet} {cell : String → Nat}
    {ms : List WrittenLiteral}
    (hs : s.members.map (·.resolve a) = (ms.map (·.over cell)).eraseDups) :
    s.freeCells a = ((ms.flatMap (·.vars)).map cell).eraseDups := by
  have hmembers : s.members.flatMap (·.freeCells a) =
      (s.members.map (·.resolve a)).flatMap fun l => l.cells.eraseDups := by
    rw [List.flatMap_map]
    exact congrArg (s.members.flatMap ·) (funext h.freeCells_eq)
  rw [freeCells, hmembers, hs, flatMap_eraseDups, eraseDups_flatMap, List.flatMap_map,
    List.map_flatMap]
  exact congrArg (fun f => (ms.flatMap f).eraseDups) (funext fun m => m.cells_over cell)

/-- The check of the effects: each of their free cells is one of a precondition. -/
theorem Action.freeEffect?_eq_none_iff {arena : Arena} {a : Action} :
    a.freeEffect? arena = none ↔ ∀ i, i ∈ a.negative.freeCells arena ∨
      i ∈ a.positive.freeCells arena → i ∈ a.preconditions.freeCells arena := by
  have hfree : ∀ {s : LiteralSet} {i : Nat}, i ∈ s.freeCells arena ↔
      ∃ l ∈ s.members, i ∈ l.freeCells arena := by
    intro s i
    rw [LiteralSet.freeCells, List.mem_eraseDups, List.mem_flatMap]
  rw [freeEffect?, List.find?_eq_none]
  constructor
  · intro h i hi
    obtain ⟨l, hl, hil⟩ :
        ∃ l ∈ a.negative.members ++ a.positive.members, i ∈ l.freeCells arena := by
      rcases hi with hi | hi
      · obtain ⟨l, hl, hil⟩ := hfree.1 hi
        exact ⟨l, List.mem_append_left _ hl, hil⟩
      · obtain ⟨l, hl, hil⟩ := hfree.1 hi
        exact ⟨l, List.mem_append_right _ hl, hil⟩
    by_contra hno
    exact h l hl (List.any_eq_true.2 ⟨i, hil, by simpa using hno⟩)
  · intro h l hl hany
    obtain ⟨i, hi, hno⟩ := List.any_eq_true.1 hany
    have hknown : i ∈ a.preconditions.freeCells arena := by
      refine h i ((List.mem_append.1 hl).imp (fun hl => ?_) fun hl => ?_)
      · exact hfree.2 ⟨l, hl, hi⟩
      · exact hfree.2 ⟨l, hl, hi⟩
    simp [hknown] at hno

/-! ### Actions that are written

Now the two sides are put together. What was read of an action is a list of literals over one
vocabulary (`names`), taking its preconditions leads to an action whose parts are what was written
(`taken`), and what is left of building it are the two looks at its variables. -/

namespace WrittenAction

variable (a : WrittenAction)

/-- The preconditions that are read, and the vocabulary after them. -/
def readPreconditions : List Literal × Vocabulary :=
  ({} : Vocabulary).each Vocabulary.literal a.preconditions

/-- The effects that are read, and the vocabulary after them. -/
def readEffects : List (Bool × Literal) × Vocabulary :=
  a.readPreconditions.2.each Vocabulary.effect a.effects

/-- The vocabulary after an action. -/
def vocabulary : Vocabulary := a.readEffects.2

/-- The literals of the denied effects, or of the others. -/
def readEffectsWith (denied : Bool) : List Literal :=
  (a.readEffects.1.filter (·.1 == denied)).map Prod.snd

/-- When all of an action has been read, every literal of it is one that was written, in the
vocabulary that is there in the end. -/
theorem names : a.vocabulary.Names ∧
    List.Forall₂ a.vocabulary.Spells a.readPreconditions.1 a.preconditions ∧
    List.Forall₂ (fun e w => e.1 = w.denied ∧ a.vocabulary.Spells e.2 w.literal) a.readEffects.1
      a.effects := by
  obtain ⟨hgrows, hpre⟩ := Vocabulary.Names.each (R := Vocabulary.Spells) (fun h hw => h.mono hw)
    (fun {v} (hv : v.Names) m => hv.literal m) Vocabulary.names_empty a.preconditions
  obtain ⟨hgrows', heff⟩ := Vocabulary.Names.each
    (R := fun v (e : Bool × Literal) (w : WrittenEffect) => e.1 = w.denied ∧ v.Spells e.2 w.literal)
    (fun h hw => ⟨h.1, h.2.mono hw⟩) (fun {v} (hv : v.Names) e => hv.effect e) hgrows.names
    a.effects
  exact ⟨hgrows'.names, hpre.imp fun _ _ h => h.mono hgrows', heff⟩

/-- An action is built from what was read, the denied effects first. -/
theorem build_eq : a.build = Action.build a.vocabulary.arena a.name a.readPreconditions.1
    (a.readEffectsWith true) (a.readEffectsWith false) := by
  have hfilter : ∀ es : List (Bool × Literal),
      es.filter (·.1 == true) = es.filter (·.1) ∧ es.filter (·.1 == false) = es.filter (!·.1) := by
    intro es
    exact ⟨List.filter_congr fun e _ => by cases e.1 <;> rfl,
      List.filter_congr fun e _ => by cases e.1 <;> rfl⟩
  rw [readEffectsWith, readEffectsWith, (hfilter _).1, (hfilter _).2]
  rfl

/-- What the preconditions say is what was written. -/
theorem map_resolve_readPreconditions (p : String → Bool) :
    (a.readPreconditions.1.filter fun l => p l.name).map (·.resolve a.vocabulary.arena) =
      (a.preconditions.filter fun m => p m.name).map (·.over a.vocabulary.cell) := by
  obtain ⟨hnames, hpre, -⟩ := a.names
  generalize a.readPreconditions.1 = ls at hpre
  generalize a.preconditions = ms at hpre
  induction hpre with
  | nil => rfl
  | @cons l m ls ms hl _ ih =>
    rw [List.filter_cons, List.filter_cons, hl.name]
    split
    · rw [List.map_cons, List.map_cons, ih, hnames.resolve hl]
    · exact ih

/-- So is what the effects say, the denied ones and the others. -/
theorem map_resolve_readEffectsWith (denied : Bool) :
    (a.readEffectsWith denied).map (·.resolve a.vocabulary.arena) =
      (a.effectsWith denied).map (·.over a.vocabulary.cell) := by
  obtain ⟨hnames, -, heff⟩ := a.names
  rw [readEffectsWith, effectsWith]
  generalize a.readEffects.1 = es at heff
  generalize a.effects = ws at heff
  induction heff with
  | nil => rfl
  | @cons e w es ws he _ ih =>
    rw [List.filter_cons, List.filter_cons, he.1]
    split
    · rw [List.map_cons, List.map_cons, List.map_cons, List.map_cons, ih, hnames.resolve he.2]
    · exact ih

/-- Each literal that was written has been read. -/
theorem exists_spells {m : WrittenLiteral} (hm : m ∈ a.preconditions ++ a.effects.map (·.literal)) :
    ∃ l, a.vocabulary.Spells l m := by
  obtain ⟨-, hpre, heff⟩ := a.names
  rcases List.mem_append.1 hm with hm | hm
  · obtain ⟨l, -, hl⟩ := exists_of_mem_right hpre hm
    exact ⟨l, hl⟩
  · obtain ⟨w, hw, rfl⟩ := List.mem_map.1 hm
    obtain ⟨e, -, -, he⟩ := exists_of_mem_right heff hw
    exact ⟨e.2, he⟩

/-- The variables that are written have cells of their own. -/
theorem cell_injective {m n : WrittenLiteral} {x y : String}
    (hm : m ∈ a.preconditions ++ a.effects.map (·.literal)) (hx : x ∈ m.vars)
    (hn : n ∈ a.preconditions ++ a.effects.map (·.literal)) (hy : y ∈ n.vars)
    (hxy : a.vocabulary.cell x = a.vocabulary.cell y) : x = y := by
  obtain ⟨l, hl⟩ := a.exists_spells hm
  obtain ⟨k, hk⟩ := a.exists_spells hn
  obtain ⟨i, hi⟩ := hl.exists_lookup hx
  obtain ⟨j, hj⟩ := hk.exists_lookup hy
  rw [Vocabulary.cell, Vocabulary.cell, hi, hj] at hxy
  exact a.names.1.injective x y j (hi.trans (congrArg some hxy)) hj

/-- The constraints that are read can be taken if they are as they should be. -/
theorem forall_fits_iff :
    (∀ l ∈ a.readPreconditions.1, l.name = distinctName → l.Fits) ↔
      ∀ m ∈ a.constraints, ∃ x y, m.arguments = [x, y] ∧ ¬(isVariable x = true ∧ x = y) := by
  obtain ⟨hnames, hpre, -⟩ := a.names
  constructor
  · intro h m hm
    obtain ⟨hm, hname⟩ := List.mem_filter.1 hm
    obtain ⟨l, hl, hspells⟩ := exists_of_mem_right hpre hm
    exact hspells.fits_iff.1 (h l hl (hspells.name.trans (beq_iff_eq.1 hname)))
  · intro h l hl hname
    obtain ⟨m, hm, hspells⟩ := exists_of_mem_left hpre hl
    exact hspells.fits_iff.2 (h m (List.mem_filter.2 ⟨hm, beq_iff_eq.2 (hspells.name ▸ hname)⟩))

/-- What is known of an action when its preconditions have been taken. -/
structure Taken (b : Action) (arena : Arena) : Prop where
  allNew : arena.AllNew
  name : b.name = a.name
  preconditions : b.preconditions.members.map (·.resolve arena) =
    (a.needed.map (·.over a.vocabulary.cell)).eraseDups
  /-- The constraints are compared term by term, since a pair of an action has no name. -/
  distinct : b.distinct.map (fun p => [p.1.resolve arena, p.2.resolve arena]) =
    a.constraints.map fun m => (m.over a.vocabulary.cell).terms
  negative : b.negative.members.map (·.resolve arena) =
    ((a.effectsWith true).map (·.over a.vocabulary.cell)).eraseDups
  positive : b.positive.members.map (·.resolve arena) =
    ((a.effectsWith false).map (·.over a.vocabulary.cell)).eraseDups

/-- The action before its preconditions are taken. -/
def start : Action where
  name := a.name
  negative := .ofList a.vocabulary.arena (a.readEffectsWith true)
  positive := .ofList a.vocabulary.arena (a.readEffectsWith false)

/-- The terms of the preconditions are cells that were made. -/
theorem spans_readPreconditions :
    ∀ l ∈ a.readPreconditions.1, a.vocabulary.arena.Spans l.terms := by
  obtain ⟨hnames, hpre, -⟩ := a.names
  intro l hl t ht
  obtain ⟨m, -, hspells⟩ := exists_of_mem_left hpre hl
  obtain ⟨x, -, hx⟩ := exists_of_mem_left hspells.terms ht
  cases hx with
  | free _ hi => exact ⟨_, hnames.known _ _ hi, rfl⟩
  | bound _ hi => exact ⟨_, hi, rfl⟩

/-- **The preconditions have been taken**: the parts of the action are what was written, without
repetitions. -/
theorem taken {b : Action} {arena : Arena}
    (h : a.start.addPreconditions a.vocabulary.arena a.readPreconditions.1 = (.ok b, arena)) :
    a.Taken b arena := by
  obtain ⟨hnames, -, -⟩ := a.names
  have hnew := hnames.fresh.allNew
  have hnone : a.start.preconditions.members.map (·.resolve a.vocabulary.arena) =
      (([] : List Literal).map (·.resolve a.vocabulary.arena)).eraseDups := rfl
  have htook := Action.took_of_addPreconditions hnew a.spans_readPreconditions hnone h
  have hsay := hnew.resolve_eq htook.allNew htook.value?
  have heffects : ∀ denied, (LiteralSet.ofList a.vocabulary.arena
      (a.readEffectsWith denied)).members.map (·.resolve arena) =
      ((a.effectsWith denied).map (·.over a.vocabulary.cell)).eraseDups := by
    intro denied
    simp only [hsay]
    rw [LiteralSet.map_resolve_ofList, map_resolve_readEffectsWith]
  refine ⟨htook.allNew, htook.name, ?_, ?_, ?_, ?_⟩
  · simp only [hsay]
    rw [htook.preconditions, List.nil_append]
    exact congrArg List.eraseDups (a.map_resolve_readPreconditions (· != distinctName))
  · have hpairs : b.distinct.map (fun p => [p.1.resolve arena, p.2.resolve arena]) =
        ((a.readPreconditions.1.filter (·.name == distinctName)).map (·.resolve arena)).map
          (·.terms) := by
      have hlists := congrArg (List.map (List.map (·.resolve arena))) htook.pairs
      simpa [Action.pairs, start, Literal.resolve, Function.comp_def] using hlists
    simp only [hsay] at hpairs
    rw [hpairs, a.map_resolve_readPreconditions (· == distinctName), List.map_map]
    rfl
  · rw [htook.negative]
    exact heffects true
  · rw [htook.positive]
    exact heffects false

variable {a}

/-- The free cells of the parts of an action are those of the variables that are written there. -/
theorem Taken.freeCells {b : Action} {arena : Arena} (h : a.Taken b arena) :
    b.preconditions.freeCells arena =
        ((a.needed.flatMap (·.vars)).map a.vocabulary.cell).eraseDups ∧
      b.negative.freeCells arena =
        (((a.effectsWith true).flatMap (·.vars)).map a.vocabulary.cell).eraseDups ∧
      b.positive.freeCells arena =
        (((a.effectsWith false).flatMap (·.vars)).map a.vocabulary.cell).eraseDups :=
  ⟨LiteralSet.freeCells_eq h.allNew h.preconditions, LiteralSet.freeCells_eq h.allNew h.negative,
    LiteralSet.freeCells_eq h.allNew h.positive⟩

/-- Every effect is denied, or it is not. -/
theorem mem_effectsWith {m : WrittenLiteral} :
    (m ∈ a.effectsWith true ∨ m ∈ a.effectsWith false) ↔ ∃ e ∈ a.effects, e.literal = m := by
  simp only [effectsWith, List.mem_map, List.mem_filter]
  constructor
  · rintro (⟨e, ⟨he, -⟩, rfl⟩ | ⟨e, ⟨he, -⟩, rfl⟩)
    · exact ⟨e, he, rfl⟩
    · exact ⟨e, he, rfl⟩
  · rintro ⟨e, he, rfl⟩
    cases hdenied : e.denied with
    | true => exact .inl ⟨e, ⟨he, by simp [hdenied]⟩, rfl⟩
    | false => exact .inr ⟨e, ⟨he, by simp [hdenied]⟩, rfl⟩

/-- The check of the effects, in the words of the text. -/
theorem Taken.freeEffect?_eq_none_iff {b : Action} {arena : Arena} (h : a.Taken b arena) :
    b.freeEffect? arena = none ↔
      ∀ e ∈ a.effects, ∀ x ∈ e.literal.vars, ∃ m ∈ a.needed, x ∈ m.vars := by
  obtain ⟨hpre, hneg, hpos⟩ := h.freeCells
  have hmem : ∀ {ms : List WrittenLiteral} {i : Nat},
      i ∈ ((ms.flatMap (·.vars)).map a.vocabulary.cell).eraseDups ↔
        ∃ m ∈ ms, ∃ x ∈ m.vars, a.vocabulary.cell x = i := by
    intro ms i
    simp only [List.mem_eraseDups, List.mem_map, List.mem_flatMap]
    constructor
    · rintro ⟨x, ⟨m, hm, hx⟩, hi⟩
      exact ⟨m, hm, x, hx, hi⟩
    · rintro ⟨m, hm, x, hx, hi⟩
      exact ⟨x, ⟨m, hm, hx⟩, hi⟩
  rw [Action.freeEffect?_eq_none_iff, hpre, hneg, hpos]
  simp only [hmem]
  constructor
  · -- the cell of a variable in an effect is one of a precondition, and so is the variable
    intro hall e he x hx
    have heffect := mem_effectsWith.2 ⟨e, he, rfl⟩
    obtain ⟨m, hm, y, hy, hyx⟩ := hall (a.vocabulary.cell x)
      (heffect.imp (fun hm => ⟨_, hm, x, hx, rfl⟩) fun hm => ⟨_, hm, x, hx, rfl⟩)
    have hxy := a.cell_injective (List.mem_append_left _ (List.mem_filter.1 hm).1) hy
      (List.mem_append_right _ (List.mem_map_of_mem he)) hx hyx
    exact ⟨m, hm, hxy ▸ hy⟩
  · rintro hall i hi
    obtain ⟨m, hm, x, hx, rfl⟩ : ∃ m, (m ∈ a.effectsWith true ∨ m ∈ a.effectsWith false) ∧
        ∃ x ∈ m.vars, a.vocabulary.cell x = i := by
      rcases hi with ⟨m, hm, hx⟩ | ⟨m, hm, hx⟩
      · exact ⟨m, .inl hm, hx⟩
      · exact ⟨m, .inr hm, hx⟩
    obtain ⟨e, he, rfl⟩ := mem_effectsWith.1 hm
    obtain ⟨n, hn, hxn⟩ := hall e he x hx
    exact ⟨n, hn, x, hxn, rfl⟩

/-- The parameters are the variables in the order in which they are met. -/
theorem Taken.collectParameters {b : Action} {arena : Arena} (h : a.Taken b arena) :
    b.collectParameters arena = a.vars.map a.vocabulary.cell := by
  obtain ⟨hpre, hneg, hpos⟩ := h.freeCells
  have hliteral : ∀ m ∈ a.needed ++ a.effectsWith true ++ a.effectsWith false,
      m ∈ a.preconditions ++ a.effects.map (·.literal) := by
    intro m hm
    rw [List.append_assoc] at hm
    rcases List.mem_append.1 hm with hm | hm
    · exact List.mem_append_left _ (List.mem_filter.1 hm).1
    · obtain ⟨e, he, rfl⟩ := mem_effectsWith.1 (List.mem_append.1 hm)
      exact List.mem_append_right _ (List.mem_map_of_mem he)
  -- different variables have different cells, so repetitions are the same on both sides
  have hinjective : ∀ x ∈ (a.needed ++ a.effectsWith true ++ a.effectsWith false).flatMap (·.vars),
      ∀ y ∈ (a.needed ++ a.effectsWith true ++ a.effectsWith false).flatMap (·.vars),
      a.vocabulary.cell x = a.vocabulary.cell y → x = y := by
    intro x hx y hy hxy
    obtain ⟨m, hm, hx⟩ := List.mem_flatMap.1 hx
    obtain ⟨n, hn, hy⟩ := List.mem_flatMap.1 hy
    exact a.cell_injective (hliteral m hm) hx (hliteral n hn) hy hxy
  rw [Action.collectParameters, hpre, hneg, hpos, vars, ← map_eraseDups hinjective,
    append_eraseDups_eraseDups, ← eraseDups_eraseDups_append, append_eraseDups_eraseDups,
    eraseDups_eraseDups_append, List.append_assoc, eraseDups_eraseDups_append, List.flatMap_append,
    List.flatMap_append, List.map_append, List.map_append, List.append_assoc]

/-- An action is built when its preconditions can be taken and its effects pass the check. -/
theorem build_eq_ok_iff {action : Action} {arena : Arena} :
    a.build = (.ok action, arena) ↔ ∃ b,
      a.start.addPreconditions a.vocabulary.arena a.readPreconditions.1 = (.ok b, arena) ∧
      b.freeEffect? arena = none ∧ action = { b with parameters := b.collectParameters arena } := by
  rw [build_eq]
  constructor
  · exact Action.exists_of_build
  · rintro ⟨b, hb, hfree, rfl⟩
    rw [start] at hb
    simp only [Action.build, hb, hfree]

/-- **An action can be built** exactly if it uses its variables as it may. -/
theorem exists_build_iff : (∃ s : Schema, a.build = (.ok s.action, s.arena)) ↔ a.Admissible := by
  have hfits := Action.exists_addPreconditions_iff (a := a.start) a.names.1.fresh.allNew
    a.spans_readPreconditions
  constructor
  · rintro ⟨s, hs⟩
    obtain ⟨b, hb, hfree, -⟩ := build_eq_ok_iff.1 hs
    exact ⟨a.forall_fits_iff.1 (hfits.1 ⟨b, s.arena, hb⟩),
      (a.taken hb).freeEffect?_eq_none_iff.1 hfree⟩
  · intro h
    obtain ⟨b, arena, hb⟩ := hfits.2 (a.forall_fits_iff.2 h.distinct)
    exact ⟨⟨{ b with parameters := b.collectParameters arena }, arena⟩, build_eq_ok_iff.2
      ⟨b, hb, (a.taken hb).freeEffect?_eq_none_iff.2 h.bound, rfl⟩⟩

/-- **A schema that was built** says what was written. -/
theorem says_of_build {s : Schema} (h : a.build = (.ok s.action, s.arena)) :
    s.Says a a.vocabulary.cell := by
  obtain ⟨b, hb, -, haction⟩ := build_eq_ok_iff.1 h
  have htaken := a.taken hb
  have hparameters := htaken.collectParameters
  rw [← show s.action.parameters = b.collectParameters s.arena by rw [haction]] at hparameters
  exact
    { injective := fun l hl x hx m hm y hy hxy =>
        a.cell_injective (List.mem_append_left _ hl) hx (List.mem_append_left _ hm) hy hxy
      name := by rw [haction]; exact htaken.name
      preconditions := by rw [haction]; exact htaken.preconditions
      distinct := by rw [haction]; exact htaken.distinct
      negative := by rw [haction]; exact htaken.negative
      positive := by rw [haction]; exact htaken.positive
      parameters := hparameters }

end WrittenAction

end Strips
