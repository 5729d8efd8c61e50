import Mathlib.Data.List.Forall2
import Mathlib.Data.Prod.Lex
import Mathlib.Data.String.Basic
import Strips.Proofs.Hosting
import Strips.Proofs.Indexing

/-!
# The orders are total

Literals are ordered by the values that their terms have now, and sets by their members. Both
comparisons are one of keys: the key of a literal is its name, then for each term whether it has a
value and which one, then its arity, and the key of a set is the list of those of its members. Keys
are ordered lexicographically, so whatever the values are, the comparisons are total preorders, and
what is equivalent has equal keys.

A comparison decides about keys (`Ordering.Compares`) as soon as it does so part by part, and the
proofs go along the parts.

## Main definitions

* `Literal.SortKey`, `Literal.sortKey`, `LiteralSet.sortKey` – keys and their order.
* `Literal.Ordered`, `LiteralSet.Ordered` – what the comparisons of literals and of sets do.

## Main results

* `Literal.compares_compare`, `LiteralSet.compares_compare` – comparisons are those of keys.
* `IndexedSet.Coherent.sameMembers` – constant sets that are equivalent have the same members.
* `IndexedSet.orders_total` – the orders in any state of the cells.
-/

namespace Strips

/-! ### Comparing part by part -/

section Compares

variable {α β : Type} {o o' : Ordering}

/-- Pairs are compared by their first parts, then by their second ones. -/
theorem compares_then_toLex [LT α] [LT β] {a c : α} {b d : β} (h : o.Compares a c)
    (h' : o'.Compares b d) : (o.then o').Compares (toLex (a, b)) (toLex (c, d)) := by
  cases o with
  | lt => exact Prod.Lex.toLex_lt_toLex.2 (.inl h)
  | gt => exact Prod.Lex.toLex_lt_toLex.2 (.inl h)
  | eq =>
    obtain rfl : a = c := h
    cases o' with
    | lt => exact Prod.Lex.toLex_lt_toLex.2 (.inr ⟨rfl, h'⟩)
    | gt => exact Prod.Lex.toLex_lt_toLex.2 (.inr ⟨rfl, h'⟩)
    | eq => exact congrArg (fun b => toLex (a, b)) h'

/-- A second part that depends on the first one decides nothing. -/
theorem compares_toLex_of_fst [LT α] [LT β] (f : α → β) {a c : α} (h : o.Compares a c) :
    o.Compares (toLex (a, f a)) (toLex (c, f c)) := by
  cases o with
  | lt => exact Prod.Lex.toLex_lt_toLex.2 (.inl h)
  | gt => exact Prod.Lex.toLex_lt_toLex.2 (.inl h)
  | eq => exact congrArg (fun a => toLex (a, f a)) h

/-- Lists are compared by their heads, then by their tails. -/
theorem compares_then_cons [LT α] {a b : α} {as bs : List α} (h : o.Compares a b)
    (h' : o'.Compares as bs) : (o.then o').Compares (a :: as) (b :: bs) := by
  cases o with
  | lt => exact List.Lex.rel h
  | gt => exact List.Lex.rel h
  | eq =>
    obtain rfl : a = b := h
    cases o' with
    | lt => exact List.Lex.cons h'
    | gt => exact List.Lex.cons h'
    | eq => exact congrArg (a :: ·) h'

/-- A comparison of keys is a total preorder. -/
theorem transCmp_of_compares [LinearOrder α] {compare : β → β → Ordering} (key : β → α)
    (h : ∀ b c, (compare b c).Compares (key b) (key c)) : Std.TransCmp compare where
  eq_swap {b c} := (h b c).inj (Ordering.compares_swap.2 (h c b))
  isLE_trans {b c d} hbc hcd := by
    rw [Ordering.isLE_iff_ne_gt] at hbc hcd ⊢
    exact (h b d).ne_gt.2 (((h b c).ne_gt.1 hbc).trans ((h c d).ne_gt.1 hcd))

end Compares

/-! ### Literals -/

namespace Literal

/-- Whether there is a value, and the value. -/
def valueKey (v : Option String) : Bool ×ₗ String := toLex (v.isSome, v.getD "")

/-- Names, values and arities, in lexicographic order. -/
abbrev SortKey : Type := String ×ₗ List (Bool ×ₗ String) ×ₗ Nat

/-- What the order of literals goes by: the name, then the terms from left to right, then the
arity. -/
def sortKey (arena : Arena) (l : Literal) : SortKey :=
  toLex (l.name, toLex ((l.values arena).map valueKey, l.arity))

theorem valueKey_injective : Function.Injective valueKey := by
  intro v w h
  cases v <;> cases w <;> simp_all [valueKey]

/-- No value comes before any value, the empty one too. -/
theorem valueKey_none_lt (v : String) : valueKey none < valueKey (some v) :=
  Prod.Lex.toLex_lt_toLex.2 (.inl rfl)

theorem compares_compareValue_some (v w : String) :
    (compareValue (some v) (some w)).Compares v w := by
  rw [compareValue]
  split
  · assumption
  · split
    · assumption
    · exact lt_of_le_of_ne (not_lt.1 ‹_›) (Ne.symm ‹_›)

theorem compares_compareValue (v w : Option String) :
    (compareValue v w).Compares (valueKey v) (valueKey w) := by
  cases v with
  | none =>
    cases w with
    | none => rfl
    | some w => exact valueKey_none_lt w
  | some v =>
    cases w with
    | none => exact valueKey_none_lt v
    | some w => exact compares_then_toLex (o := .eq) rfl (compares_compareValue_some v w)

theorem compares_compareValues : ∀ vs ws : List (Option String),
    (compareValues vs ws).Compares (vs.map valueKey) (ws.map valueKey)
  | [], [] => rfl
  | [], _ :: _ => List.Lex.nil
  | _ :: _, [] => List.Lex.nil
  | v :: vs, w :: ws =>
    compares_then_cons (compares_compareValue v w) (compares_compareValues vs ws)

variable {arena : Arena}

@[simp] theorem length_values (l : Literal) : (l.values arena).length = l.arity := by
  rw [values, List.length_map, arity]

/-- **Literals are compared by their keys.** The arity adds nothing: lists of values that are equal
have one length. -/
theorem compares_compare (l m : Literal) :
    (l.compare arena m).Compares (l.sortKey arena) (m.sortKey arena) := by
  refine compares_then_toLex (compares_compareValue_some l.name m.name) ?_
  have harity : ∀ l : Literal, l.arity = ((l.values arena).map valueKey).length := fun l => by simp
  rw [harity l, harity m]
  exact compares_toLex_of_fst List.length (compares_compareValues _ _)

theorem sortKey_eq_iff {l m : Literal} :
    l.sortKey arena = m.sortKey arena ↔ l.name = m.name ∧ l.values arena = m.values arena := by
  constructor
  · intro h
    obtain ⟨hname, hrest⟩ := Prod.ext_iff.1 (toLex.injective h)
    exact ⟨hname, valueKey_injective.list_map (congrArg Prod.fst (toLex.injective hrest))⟩
  · rintro ⟨hname, hvalues⟩
    have harity : l.arity = m.arity := by
      simpa using congrArg List.length hvalues
    rw [sortKey, hname, hvalues, harity, sortKey]

theorem compare_eq_eq_iff {l m : Literal} :
    l.compare arena m = .eq ↔ l.sortKey arena = m.sortKey arena :=
  (compares_compare l m).eq_eq

/-- The first term with a value in one literal alone decides. -/
theorem sortKey_lt_of_none {l m : Literal} {before after after' : List (Option String)} {v : String}
    (hname : l.name = m.name) (hl : l.values arena = before ++ none :: after)
    (hm : m.values arena = before ++ some v :: after') : l.sortKey arena < m.sortKey arena := by
  refine Prod.Lex.toLex_lt_toLex.2 (.inr ⟨hname, Prod.Lex.toLex_lt_toLex.2 (.inl ?_)⟩)
  rw [hl, hm, List.map_append, List.map_append]
  exact List.Lex.append_left _ (.rel (valueKey_none_lt v)) _

/-! ### Facts -/

theorem compareValues_some_iff : ∀ {as bs : List String},
    (compareValues (as.map some) (bs.map some)).isLE = true ↔ Fact.argumentsLe as bs = true
  | [], [] => by simp [compareValues, Fact.argumentsLe]
  | [], _ :: _ => by simp [compareValues, Fact.argumentsLe]
  | _ :: _, [] => by simp [compareValues, Fact.argumentsLe]
  | a :: as, b :: bs => by
    rw [List.map_cons, List.map_cons, compareValues, compareValue, Fact.argumentsLe]
    split
    · exact compareValues_some_iff
    · split <;> simp [*, Ordering.then]

/-- The order of facts is that of their literals. -/
theorem isLE_compare_iff {f g : Fact} :
    (f.literal.compare arena g.literal).isLE = true ↔ f.le g = true := by
  have hvalues : ∀ f : Fact, f.literal.values arena = f.arguments.map some := fun f => by
    rw [values, Fact.literal, List.map_map]
    rfl
  rw [compare, hvalues, hvalues, Fact.le_iff, ← compareValues_some_iff]
  rfl

/-- The comparison of literals is a total preorder, and that of keys. What is equivalent has one
name and the same values, and no value comes before any value. -/
structure Ordered (arena : Arena) : Prop where
  transCmp : Std.TransCmp (compare arena)
  eq_iff : ∀ l m, compare arena l m = .eq ↔ l.name = m.name ∧ l.values arena = m.values arena
  lt_iff : ∀ l m, compare arena l m = .lt ↔ l.sortKey arena < m.sortKey arena
  none_lt : ∀ l m before after after' v, l.name = m.name →
    l.values arena = before ++ none :: after → m.values arena = before ++ some v :: after' →
    compare arena l m = .lt
  fact_le_iff : ∀ f g : Fact, f.le g = true ↔ (compare arena f.literal g.literal).isLE = true

theorem ordered (arena : Arena) : Ordered arena where
  transCmp := transCmp_of_compares _ compares_compare
  eq_iff _ _ := compare_eq_eq_iff.trans sortKey_eq_iff
  lt_iff l m := (compares_compare l m).eq_lt
  none_lt l m _ _ _ _ hname hl hm :=
    (compares_compare l m).eq_lt.2 (sortKey_lt_of_none hname hl hm)
  fact_le_iff _ _ := isLE_compare_iff.symm

end Literal

/-! ### Sets -/

namespace LiteralSet

/-- What the order of sets goes by. -/
def sortKey (arena : Arena) (s : LiteralSet) : List Literal.SortKey :=
  s.members.map (·.sortKey arena)

variable {arena : Arena}

/-- **Lists of literals are compared by their lists of keys.** -/
theorem compares_compareMembers : ∀ ls ms : List Literal,
    (compareMembers arena ls ms).Compares (ls.map (·.sortKey arena)) (ms.map (·.sortKey arena))
  | [], [] => rfl
  | [], _ :: _ => List.Lex.nil
  | _ :: _, [] => List.Lex.nil
  | l :: ls, m :: ms =>
    compares_then_cons (Literal.compares_compare l m) (compares_compareMembers ls ms)

/-- Literals that are equivalent one by one have the same list of keys. -/
theorem forall₂_compare_iff {ls ms : List Literal} :
    List.Forall₂ (fun l m => l.compare arena m = .eq) ls ms ↔
      ls.map (·.sortKey arena) = ms.map (·.sortKey arena) := by
  simp only [Literal.compare_eq_eq_iff]
  rw [← List.forall₂_eq_eq_eq, List.forall₂_map_left_iff, List.forall₂_map_right_iff]

theorem compares_compare (s t : LiteralSet) :
    (s.compare arena t).Compares (s.sortKey arena) (t.sortKey arena) :=
  compares_compareMembers s.members t.members

theorem compare_eq_eq_iff {s t : LiteralSet} :
    s.compare arena t = .eq ↔ s.sortKey arena = t.sortKey arena :=
  (compares_compare s t).eq_eq

/-- The comparison of sets is a total preorder, and that of keys. Equivalent sets have
members that are equivalent one by one, and a proper initial part comes first. -/
structure Ordered (arena : Arena) : Prop where
  transCmp : Std.TransCmp (compare arena)
  eq_iff : ∀ s t, compare arena s t = .eq ↔
    List.Forall₂ (fun l m => l.compare arena m = .eq) s.members t.members
  lt_iff : ∀ s t, compare arena s t = .lt ↔ s.sortKey arena < t.sortKey arena
  initial_lt : ∀ s t ms rest, t.members = ms ++ rest → rest ≠ [] →
    List.Forall₂ (fun l m => l.compare arena m = .eq) s.members ms → compare arena s t = .lt

theorem ordered (arena : Arena) : Ordered arena where
  transCmp := transCmp_of_compares _ compares_compare
  eq_iff _ _ := compare_eq_eq_iff.trans forall₂_compare_iff.symm
  lt_iff s t := (compares_compare s t).eq_lt
  initial_lt s t ms rest ht hrest hms := by
    refine (compares_compare s t).eq_lt.2 ?_
    obtain ⟨l, rest, rfl⟩ := List.exists_cons_of_ne_nil hrest
    rw [sortKey, sortKey, ht, List.map_append, ← forall₂_compare_iff.1 hms]
    have hnil := List.Lex.append_left (· < ·) (List.Lex.nil (a := l.sortKey arena)
      (l := rest.map (·.sortKey arena))) (s.members.map (·.sortKey arena))
    rwa [List.append_nil] at hnil

end LiteralSet

/-! ### Sets of constants -/

namespace IndexedSet

/-- **A set of constants has the members of every set that it is equivalent to.** Each member of
that set is as ground as the constant that stands in its place, so it is found by its values. -/
theorem Coherent.sameMembers {a : Arena} {s t : IndexedSet} (h : s.Coherent a) (ha : a.Sound)
    (hs : ∀ m ∈ s.items, m.isConstant a = true) (hst : s.plain.compare a t.plain = .eq) :
    s.sameMembers a t = true := by
  have hkeys : s.items.map (·.sortKey a) = t.items.map (·.sortKey a) :=
    LiteralSet.compare_eq_eq_iff.1 hst
  have hlength : s.items.length = t.items.length := by
    simpa only [List.length_map] using congrArg List.length hkeys
  rw [IndexedSet.sameMembers, hlength, beq_self_eq_true, Bool.true_and, containsAll,
    List.all_eq_true]
  intro l hl
  obtain ⟨m, hm, hml⟩ := List.mem_map.1 (hkeys ▸ List.mem_map_of_mem hl)
  obtain ⟨hname, hvalues⟩ := Literal.sortKey_eq_iff.1 hml
  refine (h.contains_iff ha).2 ⟨m, hm, (Literal.same_iff_key ha (hs m hm)).2 ⟨?_, ?_⟩⟩
  · have hground : m.isGround a = true := List.all_eq_true.2 fun t ht =>
      Option.isSome_iff_exists.2
        (Term.exists_value?_of_isConstant ha (List.all_eq_true.1 (hs m hm) t ht))
    rwa [Literal.isGround_eq_values, hvalues, ← Literal.isGround_eq_values] at hground
  · rw [Literal.key, Literal.key, hname, hvalues]

/-- **The orders are total**, whatever values the cells have. And a set of constants, however it was
made, has the same members as every set that it is equivalent to. -/
theorem orders_total (a : Arena) : Literal.Ordered a ∧ LiteralSet.Ordered a ∧
    ∀ (calls : List SetCall) (s : IndexedSet), SetCall.Valid 0 calls →
      SetCall.run calls = (a, s) → (∀ m ∈ s.items, m.isConstant a = true) →
      ∀ t : IndexedSet, s.plain.compare a t.plain = .eq → s.sameMembers a t = true := by
  refine ⟨Literal.ordered a, LiteralSet.ordered a, fun calls s hvalid hrun hs t hst => ?_⟩
  have hkept : Kept (a, s) := hrun ▸ kept_empty.foldl hvalid
  exact hkept.coherent.sameMembers hkept.sound hs hst

end IndexedSet

/-- Calls that make a constant with the empty value and a free cell, and add a literal with the
constant. -/
def SetCall.addEmptyText : List SetCall :=
  [.cells (.newCell (some "") 0), .cells (.newCell none 0), .add ⟨"p", [.cell 0]⟩]

/-- No value comes before the empty one, no member before that literal, and a set with the fact that
the literal says has the same members. -/
theorem IndexedSet.orders_total_addEmptyText : SetCall.Valid 0 SetCall.addEmptyText ∧
    ∃ a s, SetCall.run SetCall.addEmptyText = (a, s) ∧
      Literal.compare a ⟨"p", [.cell 1]⟩ ⟨"p", [.cell 0]⟩ = .lt ∧
      LiteralSet.compare a {} s.plain = .lt ∧
      s.sameMembers a { items := [(⟨"p", [""]⟩ : Fact).literal] } = true := by
  have hvalid : SetCall.Valid 0 SetCall.addEmptyText := by decide
  obtain ⟨hliteral, hset, hsame⟩ := orders_total (SetCall.run SetCall.addEmptyText).1
  refine ⟨hvalid, _, _, rfl, ?_, ?_, ?_⟩
  · exact hliteral.none_lt _ _ [] [] [] "" rfl (by decide) (by decide)
  · exact hset.initial_lt _ _ [] [⟨"p", [.cell 0]⟩] (by decide) (by decide) .nil
  · exact hsame _ _ hvalid rfl (by decide) _ (by decide)

end Strips
