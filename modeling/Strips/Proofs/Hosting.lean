import Strips.Proofs.Classes
import Strips.Proofs.Fitting

/-!
# The cells of a schema in a larger arena

On a workbench the cells of a schema stand among those of other objects. As long as they are not
linked, what is done to them is done to an assignment of the schema's own loose arena, and
everything else stays as it is.

So each operation on the larger arena is compared with what it is on assignments: a term of the
schema has the value that the assignment gives it, unifying a literal with a constant one is
matching, and what an attempt has bound can be taken back.

## Main definitions

* `Arena.Hosts` – an arena contains the cells of a loose one.
* `Arena.graft` – the arena in which these cells have the values of an assignment.
* `Arena.unset` – an assignment without the values of some cells.

## Main results

* `Arena.Hosts.bind_graft`, `Arena.Hosts.clear_graft` – binding and clearing.
* `Arena.Hosts.unifies_unify` – unifying is matching, and can be undone.
* `Schema.Regular.step?_graft` – the step that an action is.
* `Schema.Built.clear_placed` – clearing an action unbinds its variables.
-/

namespace Strips

namespace Arena

/-- The cells of the loose arena `a` are those of `b` from `offset` on: not linked, with the same
constants and with marks among themselves only. -/
structure Hosts (b a : Arena) (offset : Nat) : Prop where
  loose : a.Loose
  isSome_value? : ∀ i, (a.value? i).isSome = a.isConstant i
  sound : b.Sound
  fits : offset + a.size ≤ b.size
  members : ∀ i < a.size, b.members (i + offset) = [i + offset]
  isConstant : ∀ i < a.size, b.isConstant (i + offset) = a.isConstant i
  value? : ∀ i, a.isConstant i = true → b.value? (i + offset) = a.value? i
  mem_partners : ∀ i < a.size, ∀ k, k ∈ b.partners (i + offset) ↔ ∃ j ∈ a.partners i, k = j + offset

/-- The arena `b` in which the cells of `a` have the values of an assignment. -/
def graft (b a : Arena) (offset : Nat) (ρ : Nat → Option String) : Arena :=
  b.revalue fun k c => if offset ≤ k ∧ k < offset + a.size then ρ (k - offset) else c.value

/-- An assignment gives the constants their values. -/
def Retains (a : Arena) (ρ : Nat → Option String) : Prop :=
  ∀ i, a.isConstant i = true → ρ i = a.value? i

/-- The assignment without the values of some cells. -/
def unset (is : List Nat) (ρ : Nat → Option String) (i : Nat) : Option String :=
  if i ∈ is then none else ρ i

theorem unset_nil (ρ : Nat → Option String) : unset [] ρ = ρ :=
  funext fun _ => if_neg List.not_mem_nil

/-- Taking back what was bound last. -/
theorem unset_update {is : List Nat} {ρ : Nat → Option String} {i : Nat} (hi : ρ i = none)
    (v : Option String) : unset (i :: is) (Function.update ρ i v) = unset is ρ := by
  funext j
  rw [unset, unset]
  by_cases hj : j = i
  · rw [hj, if_pos List.mem_cons_self]
    split
    · rfl
    · exact hi.symm
  · rw [Function.update_of_ne hj]
    exact if_congr (by rw [List.mem_cons, or_iff_right hj]) rfl rfl

theorem find_of_parent {a : Arena} {i : Nat} (hi : a.parent i = i) : a.find i = (i, a) := by
  have hroot : a.root i = i := Ranked.root_of_parent hi
  rw [find, hroot]
  cases a.size with
  | zero => rfl
  | succ n => rw [compress, if_pos hi]

namespace Hosts

variable {b a : Arena} {offset : Nat} (h : b.Hosts a offset) {ρ : Nat → Option String}

include h

theorem lt {i : Nat} (hi : i < a.size) : i + offset < b.size := by
  have := h.fits
  omega

theorem root {i : Nat} (hi : i < a.size) : b.root (i + offset) = i + offset := by
  have hlt := h.lt hi
  have hroot := (h.sound.mem_members _ (b.root (i + offset)) hlt).2
    ⟨h.sound.root_lt hlt, h.sound.root_root _⟩
  rwa [h.members i hi, List.mem_singleton] at hroot

/-- Only the cells themselves have them as their roots. -/
theorem eq_of_root_eq {i k : Nat} (hi : i < a.size) (hk : b.root k = i + offset) :
    k = i + offset := by
  have hlt := h.lt hi
  by_cases hkb : k < b.size
  · have hmem := (h.sound.mem_members _ k hlt).2 ⟨hkb, hk.trans (h.root hi).symm⟩
    rwa [h.members i hi, List.mem_singleton] at hmem
  · rw [Ranked.root_of_parent (parent_of_size_le (Nat.not_lt.1 hkb))] at hk
    exact hk

omit h in
theorem sameClasses_graft : b.SameClasses (b.graft a offset ρ) := sameClasses_revalue _ _

omit h in
@[simp] theorem isConstant_graft : (b.graft a offset ρ).isConstant = b.isConstant :=
  sameClasses_graft.isConstant

omit h in
theorem parent_graft (k : Nat) : (b.graft a offset ρ).parent k = b.parent k :=
  (keepsTrees_revalue _).parent_mapCells b k

theorem value?_graft {i : Nat} (hi : i < a.size) :
    (b.graft a offset ρ).value? (i + offset) = ρ i := by
  rw [graft, value?_revalue, h.root hi, List.getElem?_eq_getElem (h.lt hi), Option.bind_some,
    if_pos (by omega), Nat.add_sub_cancel]

theorem value?_graft_of_not {k : Nat} (hk : ¬(offset ≤ k ∧ k < offset + a.size)) :
    (b.graft a offset ρ).value? k = b.value? k := by
  have hroot : ¬(offset ≤ b.root k ∧ b.root k < offset + a.size) := by
    rintro ⟨hle, hlt⟩
    have heq := h.eq_of_root_eq (i := b.root k - offset) (k := k) (by omega) (by omega)
    omega
  rw [graft, value?_revalue, Arena.value?]
  congr
  funext c
  exact if_neg hroot

theorem value?_graft_of_isConstant (hρ : a.Retains ρ) {k : Nat} (hk : b.isConstant k = true) :
    (b.graft a offset ρ).value? k = b.value? k := by
  by_cases hin : offset ≤ k ∧ k < offset + a.size
  · obtain ⟨i, rfl⟩ : ∃ i, k = i + offset := ⟨k - offset, by omega⟩
    have hi : i < a.size := by omega
    rw [h.isConstant i hi] at hk
    rw [h.value?_graft hi, hρ i hk, h.value? i hk]
  · exact h.value?_graft_of_not hin

/-- An arena is its own graft. -/
theorem graft_self : b.graft a offset (fun i => b.value? (i + offset)) = b := by
  have hcells : (b.graft a offset fun i => b.value? (i + offset)).cells = b.cells := by
    refine List.ext_getElem? fun k => ?_
    rw [graft, revalue, getElem?_mapCells]
    by_cases hk : k < b.size
    · rw [List.getElem?_eq_getElem hk, Option.map_some]
      split
      · rename_i hin
        obtain ⟨i, rfl⟩ : ∃ i, k = i + offset := ⟨k - offset, by omega⟩
        rw [Nat.add_sub_cancel, Arena.value?, h.root (by omega), List.getElem?_eq_getElem hk]
        rfl
      · rfl
    · rw [List.getElem?_eq_none (Nat.not_lt.1 hk)]
      rfl
  exact congrArg Arena.mk hcells

omit h in
theorem modify_graft {i : Nat} (hi : i < a.size) (v : Option String) :
    ((b.graft a offset ρ).modify (i + offset) fun c => { c with value := v }) =
      b.graft a offset (Function.update ρ i v) := by
  rw [Sound.modify_value, graft, revalue_revalue, graft]
  refine congrArg (revalue b) (funext fun k => funext fun c => ?_)
  dsimp only
  by_cases hk : k = i + offset
  · rw [if_pos hk, if_pos (by omega), hk, Nat.add_sub_cancel, Function.update_self]
  · rw [if_neg hk]
    by_cases hin : offset ≤ k ∧ k < offset + a.size
    · rw [if_pos hin, if_pos hin, Function.update_of_ne (by omega)]
    · rw [if_neg hin, if_neg hin]

theorem find_graft {i : Nat} (hi : i < a.size) :
    (b.graft a offset ρ).find (i + offset) = (i + offset, b.graft a offset ρ) := by
  refine find_of_parent ?_
  rw [parent_graft]
  exact h.sound.parent_eq_iff.2 (h.root hi)

/-! ### Binding and clearing -/

/-- The same values are excluded as in the loose arena. -/
theorem isExcluded_graft {i : Nat} (hi : i < a.size) (v : String) :
    (b.graft a offset ρ).isExcluded (i + offset) v = (a.withValues ρ).isExcluded i v := by
  have hpartners : (b.graft a offset ρ).partners = b.partners := partners_revalue _ _
  rw [Bool.eq_iff_iff, (h.loose.withValues ρ).isExcluded_iff, isExcluded, sameClasses_graft.members,
    h.members i hi, hpartners]
  simp only [List.any_cons, List.any_nil, Bool.or_false, List.any_eq_true, beq_iff_eq,
    h.mem_partners i hi, partners_withValues]
  constructor
  · rintro ⟨_, ⟨j, hj, rfl⟩, hv⟩
    have hlt := h.loose.lt_of_mem_partners hj
    rw [h.value?_graft hlt] at hv
    exact ⟨j, hj, by rw [h.loose.value?_withValues, if_pos hlt, hv]⟩
  · rintro ⟨j, hj, hv⟩
    have hlt := h.loose.lt_of_mem_partners hj
    rw [h.loose.value?_withValues, if_pos hlt] at hv
    exact ⟨j + offset, ⟨j, hj, rfl⟩, by rw [h.value?_graft hlt, hv]⟩

/-- **Binding** a cell that is not bound. -/
theorem bind_graft {i : Nat} (hi : i < a.size) (hρ : ρ i = none) (v : String) :
    (b.graft a offset ρ).bind (i + offset) v =
      if (a.withValues ρ).isExcluded i v then (false, b.graft a offset ρ)
      else (true, b.graft a offset (Function.update ρ i (some v))) := by
  rw [bind, h.find_graft hi]
  simp only [h.value?_graft hi, hρ, h.isExcluded_graft hi, modify_graft hi]

/-- **Clearing** a cell. -/
theorem clear_graft {i : Nat} (hi : i < a.size) :
    (b.graft a offset ρ).clear (i + offset) =
      b.graft a offset (if a.isConstant i then ρ else Function.update ρ i none) := by
  rw [clear, isConstant_graft, h.isConstant i hi, h.find_graft hi]
  split
  · rfl
  · exact modify_graft hi none

/-- Clearing several variables, in whatever order. -/
theorem foldl_clear_graft : ∀ {is : List Nat} {ρ : Nat → Option String},
    (∀ i ∈ is, i < a.size ∧ a.isConstant i = false) →
    (is.map (· + offset)).foldl clear (b.graft a offset ρ) = b.graft a offset (unset is ρ)
  | [], ρ, _ => by rw [unset_nil]; rfl
  | i :: is, ρ, his => by
    obtain ⟨hi, hc⟩ := his i List.mem_cons_self
    have hclear : (b.graft a offset ρ).clear (i + offset) =
        b.graft a offset (Function.update ρ i none) := by rw [h.clear_graft hi, hc]; rfl
    rw [List.map_cons, List.foldl_cons, hclear,
      foldl_clear_graft fun j hj => his j (List.mem_cons_of_mem i hj)]
    refine congrArg (b.graft a offset) (funext fun j => ?_)
    rw [unset, unset, Function.update_apply]
    by_cases hj : j ∈ is <;> by_cases hji : j = i <;> simp [hj, hji]

/-! ### Terms -/

theorem value?_shift {t : Term} (ht : a.Holds [t]) :
    (t.shift offset).value? (b.graft a offset ρ) = t.at ρ := by
  cases t with
  | const v => rfl
  | cell i => exact h.value?_graft (ht i (List.mem_singleton_self _))

/-- A constant term has its value whatever the cells of the schema have. -/
theorem value?_constant (hρ : a.Retains ρ) {t : Term} (ht : t.isConstant b = true) :
    t.value? (b.graft a offset ρ) = some (Term.valueText (t.value? b)) := by
  cases t with
  | const v => rfl
  | cell k =>
    obtain ⟨v, hv⟩ := Option.isSome_iff_exists.1 (h.sound.isSome_constant k ht)
    have hvalue : (Term.cell k).value? b = some v := hv
    rw [hvalue, Term.value?, h.value?_graft_of_isConstant hρ ht, hv]
    rfl

end Hosts

/-! ### Unifying -/

/-- An assignment that arose from another one by binding some variables. -/
structure Binds (a : Arena) (is : List Nat) (ρ ρ' : Nat → Option String) : Prop where
  free : ∀ i ∈ is, i < a.size ∧ a.isConstant i = false
  retains : a.Retains ρ'
  back : unset is ρ' = ρ

namespace Binds

variable {a : Arena} {is : List Nat} {ρ ρ' : Nat → Option String}

theorem refl (hρ : a.Retains ρ) : a.Binds [] ρ ρ :=
  ⟨fun _ hi => absurd hi List.not_mem_nil, hρ, unset_nil ρ⟩

theorem reverse (hb : a.Binds is ρ ρ') : a.Binds is.reverse ρ ρ' := by
  refine ⟨fun i hi => hb.free i (List.mem_reverse.1 hi), hb.retains, ?_⟩
  rw [← hb.back]
  exact funext fun i => if_congr List.mem_reverse rfl rfl

/-- Binding one more variable. -/
theorem update (hb : a.Binds is ρ ρ') {i : Nat} (hi : i < a.size) (hc : a.isConstant i = false)
    (hnone : ρ' i = none) (v : String) : a.Binds (i :: is) ρ (Function.update ρ' i (some v)) := by
  refine ⟨List.forall_mem_cons.2 ⟨⟨hi, hc⟩, hb.free⟩, fun j hj => ?_, ?_⟩
  · have hji : j ≠ i := by
      rintro rfl
      rw [hc] at hj
      cases hj
    rw [Function.update_of_ne hji]
    exact hb.retains j hj
  · rw [unset_update hnone, hb.back]

end Binds

/-- What unifying does to a host, as decided by matching: either the cells that were bound are those
of an assignment, or nothing is bound. -/
def Unifies (b a : Arena) (offset : Nat) (ρ : Nat → Option String)
    (outcome : Literal.Match × Arena) : Option (Nat → Option String) → Prop
  | some ρ' => ∃ is, outcome = (.matched (is.map (· + offset)), b.graft a offset ρ') ∧
    a.Binds is ρ ρ'
  | none => outcome = (.failed, b.graft a offset ρ)

namespace Hosts

variable {b a : Arena} {offset : Nat} (h : b.Hosts a offset) {ρ : Nat → Option String}

include h

/-- Taking back what was bound. -/
theorem foldl_clear_of_binds {is : List Nat} {ρ' : Nat → Option String} (hb : a.Binds is ρ ρ') :
    (is.map (· + offset)).foldl clear (b.graft a offset ρ') = b.graft a offset ρ := by
  rw [h.foldl_clear_graft hb.free, hb.back]

theorem foldr_clear_of_binds {is : List Nat} {ρ' : Nat → Option String} (hb : a.Binds is ρ ρ') :
    (is.map (· + offset)).foldr (fun i c => c.clear i) (b.graft a offset ρ') =
      b.graft a offset ρ := by
  have hback := h.foldl_clear_of_binds hb.reverse
  rwa [List.map_reverse, List.foldl_reverse] at hback

theorem unifies_unifyTerms (target : Literal) : ∀ {ts us : List Term}, a.Holds ts →
    (∀ u ∈ us, u.isConstant b = true) → ∀ {is : List Nat} {ρ ρ' : Nat → Option String},
      a.Binds is ρ ρ' → b.Unifies a offset ρ
        (Literal.unifyTerms target (is.map (· + offset)) (b.graft a offset ρ')
          ((ts.map (Term.shift offset)).zip us))
        (a.matchTerms ρ' ts (us.map fun u => Term.valueText (u.value? b)))
  | [], us, _, _, is, ρ, ρ', hb =>
    ⟨is.reverse, by rw [List.map_reverse]; rfl, hb.reverse⟩
  | _ :: _, [], _, _, is, ρ, ρ', hb => ⟨is.reverse, by rw [List.map_reverse]; rfl, hb.reverse⟩
  | t :: ts, u :: us, hts, hus, is, ρ, ρ', hb => by
    have hwanted := h.value?_constant hb.retains (hus u List.mem_cons_self)
    have hvalue : (t.shift offset).value? (b.graft a offset ρ') = t.at ρ' :=
      h.value?_shift hts.head
    have hrest := fun {is : List Nat} {ρ' : Nat → Option String} (hb : a.Binds is ρ ρ') =>
      unifies_unifyTerms target hts.tail (fun v hv => hus v (List.mem_cons_of_mem u hv)) hb
    have hundo := h.foldr_clear_of_binds hb
    rw [List.map_cons, List.zip_cons_cons, Literal.unifyTerms, hwanted, List.map_cons, matchTerms]
    simp only [hvalue]
    cases hv : t.at ρ' with
    | some v =>
      rw [matchTerm_of_bound hv]
      simp only
      by_cases hvw : v = Term.valueText (u.value? b)
      · rw [if_pos hvw, if_pos hvw, Option.bind_some]
        exact hrest hb
      · rw [if_neg hvw, if_neg hvw, Option.bind_none, hundo]
        rfl
    | none =>
      cases t with
      | const w => cases hv
      | cell i =>
        have hi : i < a.size := hts i List.mem_cons_self
        have hc : a.isConstant i = false := by
          rw [Bool.eq_false_iff]
          intro hc
          have hsome := h.isSome_value? i
          rw [← hb.retains i hc, hc, show ρ' i = none from hv] at hsome
          cases hsome
        simp only [Term.shift, h.bind_graft hi hv, matchTerm_cell hv]
        by_cases hex : (a.withValues ρ').isExcluded i (Term.valueText (u.value? b)) = true
        · simp only [hex, if_true, Bool.false_eq_true, if_false, Option.bind_none, hundo]
          rfl
        · simp only [hex]
          exact hrest (hb.update hi hc hv _)

/-- **Unifying** a literal of the schema with a constant one is matching. -/
theorem unifies_unify {l m : Literal} (hl : a.Holds l.terms) (hm : m.isConstant b = true)
    (hρ : a.Retains ρ) : b.Unifies a offset ρ ((l.shift offset).unify (b.graft a offset ρ) m)
      (if l.name = m.name ∧ l.arity = m.arity then
        a.matchTerms ρ l.terms (m.shown b).arguments else none) := by
  have harity : (l.shift offset).arity = l.arity := List.length_map _
  rw [Literal.unify, harity]
  by_cases hnl : l.name = m.name ∧ l.arity = m.arity
  · have hterms := h.unifies_unifyTerms m hl (List.all_eq_true.1 hm) (Binds.refl hρ)
    have hshown : (m.shown b).arguments = m.terms.map fun u => Term.valueText (u.value? b) := by
      rw [Literal.shown, Literal.values, List.map_map]
      rfl
    rw [if_pos hnl, hshown]
    rw [if_pos (by rwa [Bool.and_eq_true, decide_eq_true_iff, decide_eq_true_iff])]
    exact hterms
  · rw [if_neg hnl]
    rw [if_neg (by rwa [Bool.and_eq_true, decide_eq_true_iff, decide_eq_true_iff])]
    rfl

end Hosts

end Arena

/-! ### Reading and clearing an action -/

theorem Literal.isGround_eq_values (arena : Arena) (l : Literal) :
    l.isGround arena = (l.values arena).all Option.isSome := by
  rw [Literal.values, List.all_map]
  rfl

namespace Action

theorem literals_shift (offset : Nat) (a : Action) :
    (a.shift offset).literals = a.literals.map (Literal.shift offset) := by
  rw [literals, literals, List.map_append, List.map_append]
  rfl

/-- Clearing an action is clearing its terms. -/
theorem clear_eq_foldl (arena : Arena) (a : Action) :
    a.clear arena = (a.literals.flatMap Literal.terms).foldl Term.clear arena := by
  have hset : ∀ (ls : List Literal) (arena : Arena),
      ls.foldl Literal.clear arena = (ls.flatMap Literal.terms).foldl Term.clear arena := by
    intro ls
    induction ls with
    | nil => exact fun _ => rfl
    | cons l ls ih =>
      intro arena
      rw [List.foldl_cons, ih, List.flatMap_cons, List.foldl_append]
      rfl
  rw [literals, List.flatMap_append, List.flatMap_append, List.foldl_append, List.foldl_append,
    ← hset, ← hset, ← hset]
  rfl

end Action

namespace Arena

/-- The assignment without the values of the variables among some terms. -/
def freed (a : Arena) (ts : List Term) (ρ : Nat → Option String) (i : Nat) : Option String :=
  if .cell i ∈ ts ∧ a.isConstant i = false then none else ρ i

/-- Only the cells of the schema count. -/
theorem graft_congr {b a : Arena} {offset : Nat} {ρ ρ' : Nat → Option String}
    (hρ : ∀ i < a.size, ρ i = ρ' i) : b.graft a offset ρ = b.graft a offset ρ' := by
  refine congrArg (revalue b) (funext fun k => funext fun c => ?_)
  split
  · exact hρ _ (by omega)
  · rfl

namespace Hosts

variable {b a : Arena} {offset : Nat} (h : b.Hosts a offset) {ρ : Nat → Option String}

include h

theorem foldl_clear_terms : ∀ {ts : List Term}, a.Holds ts → ∀ {ρ : Nat → Option String},
    (ts.map (Term.shift offset)).foldl Term.clear (b.graft a offset ρ) =
      b.graft a offset (a.freed ts ρ)
  | [], _, ρ => by
    refine congrArg (b.graft a offset) (funext fun i => ?_)
    rw [freed, if_neg fun hi => List.not_mem_nil hi.1]
  | t :: ts, hts, ρ => by
    have hhead : (t.shift offset).clear (b.graft a offset ρ) =
        b.graft a offset (a.freed [t] ρ) := by
      cases t with
      | const v =>
        refine congrArg (b.graft a offset) (funext fun i => ?_)
        rw [freed, if_neg fun hi => by cases List.mem_singleton.1 hi.1]
      | cell i =>
        refine (h.clear_graft (hts i List.mem_cons_self)).trans ?_
        refine congrArg (b.graft a offset) (funext fun j => ?_)
        rw [freed]
        by_cases hc : a.isConstant i = true
        · rw [if_pos hc, if_neg]
          rintro ⟨hj, hcj⟩
          rw [Term.cell.inj (List.mem_singleton.1 hj), hc] at hcj
          cases hcj
        · rw [if_neg hc, Function.update_apply]
          refine if_congr ?_ rfl rfl
          constructor
          · rintro rfl
            exact ⟨List.mem_singleton_self _, Bool.eq_false_iff.2 hc⟩
          · exact fun hj => Term.cell.inj (List.mem_singleton.1 hj.1)
    rw [List.map_cons, List.foldl_cons, hhead, foldl_clear_terms hts.tail]
    refine congrArg (b.graft a offset) (funext fun i => ?_)
    simp only [freed, List.mem_cons, List.not_mem_nil, or_false]
    by_cases hc : a.isConstant i = false
    · by_cases hi : .cell i ∈ ts <;> by_cases ht : .cell i = t <;> simp [hi, ht, hc]
    · simp [hc]

end Hosts

end Arena

namespace Schema

/-- A schema stands on an arena: its cells are there from `offset` on, and what has a value besides
the constants are parameters. -/
structure Placed (s : Schema) (b : Arena) (offset : Nat) : Prop where
  hosts : b.Hosts s.arena offset
  unbound : ∀ i < s.arena.size, s.arena.isConstant i = false → i ∉ s.action.parameters →
    b.value? (i + offset) = none

namespace Regular

variable {s : Schema} (h : s.Regular) {b : Arena} {offset : Nat}
  (hb : b.Hosts s.arena offset) {ρ : Nat → Option String}

include h hb

/-- A literal says on the larger arena what it says under the assignment. -/
theorem values_graft {l : Literal} (hl : l ∈ s.action.literals) :
    (l.shift offset).values (b.graft s.arena offset ρ) = l.values (s.arena.withValues ρ) := by
  rw [Literal.values, Literal.values, Literal.shift, List.map_map]
  refine List.map_congr_left fun t ht => ?_
  have hterm : s.arena.Holds [t] := fun i hi => h.holds l hl i (List.mem_singleton.1 hi ▸ ht)
  rw [Function.comp_apply, hb.value?_shift hterm, h.loose.value?_term ρ hterm]

theorem arguments_graft : (s.action.shift offset).arguments (b.graft s.arena offset ρ) =
    s.action.arguments (s.arena.withValues ρ) := by
  have hkey : (s.action.shift offset).key = none := h.key
  rw [Action.arguments, hkey, Action.arguments, h.key]
  change (s.action.parameters.map (· + offset)).map _ = _
  rw [List.map_map]
  refine List.map_congr_left fun i hi => ?_
  obtain ⟨l, hl, hil⟩ := h.parameters i hi
  have hlt : i < s.arena.size := h.holds l hl i hil
  rw [Function.comp_apply, hb.value?_graft hlt, h.loose.value?_withValues, if_pos hlt]

theorem isGround_graft {ls : LiteralSet} (hls : ∀ l ∈ ls.members, l ∈ s.action.literals) :
    LiteralSet.isGround (b.graft s.arena offset ρ) ⟨ls.members.map (Literal.shift offset)⟩ =
      ls.isGround (s.arena.withValues ρ) := by
  rw [LiteralSet.isGround, LiteralSet.isGround, List.all_map, Bool.eq_iff_iff,
    List.all_eq_true, List.all_eq_true]
  refine forall₂_congr fun l hl => ?_
  rw [Function.comp_apply, Literal.isGround_eq_values, Literal.isGround_eq_values,
    h.values_graft hb (hls l hl)]

theorem shown_graft {ls : LiteralSet} (hls : ∀ l ∈ ls.members, l ∈ s.action.literals) :
    (ls.members.map (Literal.shift offset)).map (·.shown (b.graft s.arena offset ρ)) =
      ls.members.map (·.shown (s.arena.withValues ρ)) := by
  rw [List.map_map]
  refine List.map_congr_left fun l hl => ?_
  rw [Function.comp_apply, Literal.shown, Literal.shown, h.values_graft hb (hls l hl)]
  rfl

/-- **The step** that the action is on the larger arena is the one under the assignment. -/
theorem step?_graft : (s.action.shift offset).step? (b.graft s.arena offset ρ) =
    s.action.step? (s.arena.withValues ρ) := by
  have hpre : ∀ l ∈ s.action.preconditions.members, l ∈ s.action.literals :=
    fun l hl => Action.mem_literals.2 (.inl hl)
  have hneg : ∀ l ∈ s.action.negative.members, l ∈ s.action.literals :=
    fun l hl => Action.mem_literals.2 (.inr (.inl hl))
  have hpos : ∀ l ∈ s.action.positive.members, l ∈ s.action.literals :=
    fun l hl => Action.mem_literals.2 (.inr (.inr hl))
  rw [Action.step?, Action.step?, Action.isGround, Action.isGround]
  simp only [Action.shift, h.isGround_graft hb hpre, h.isGround_graft hb hneg,
    h.isGround_graft hb hpos]
  refine if_congr Iff.rfl (congrArg some ?_) rfl
  have harguments : (s.action.shift offset).arguments (b.graft s.arena offset ρ) =
      s.action.arguments (s.arena.withValues ρ) := h.arguments_graft hb
  rw [Action.shift] at harguments
  rw [Action.shownStep, Action.shownStep, harguments]
  simp only [h.shown_graft hb hpre, h.shown_graft hb hneg, h.shown_graft hb hpos]

/-- **Clearing** the action unbinds all its variables. -/
theorem clear_graft : (s.action.shift offset).clear (b.graft s.arena offset ρ) =
    b.graft s.arena offset (s.arena.freed (s.action.literals.flatMap Literal.terms) ρ) := by
  have hholds : s.arena.Holds (s.action.literals.flatMap Literal.terms) := by
    intro i hi
    obtain ⟨l, hl, hil⟩ := List.mem_flatMap.1 hi
    exact h.holds l hl i hil
  rw [Action.clear_eq_foldl, Action.literals_shift, ← hb.foldl_clear_terms hholds,
    List.flatMap_map, List.map_flatMap]
  rfl

end Regular

/-- After clearing, the schema's constants have their values and nothing else has one. -/
theorem Built.clear_placed {s : Schema} (h : s.Built) {b : Arena} {offset : Nat}
    (hb : s.Placed b offset) {ρ : Nat → Option String} (hρ : s.arena.Retains ρ)
    (hunbound : ∀ i < s.arena.size, s.arena.isConstant i = false → i ∉ s.action.parameters →
      ρ i = none) :
    (s.action.shift offset).clear (b.graft s.arena offset ρ) =
      b.graft s.arena offset s.arena.value? := by
  rw [h.regular.clear_graft hb.hosts]
  refine Arena.graft_congr fun i hi => ?_
  rw [Arena.freed]
  by_cases hc : s.arena.isConstant i = true
  · rw [if_neg, hρ i hc]
    rintro ⟨-, hc'⟩
    rw [hc] at hc'
    cases hc'
  · rw [h.regular.value?_eq_none (Bool.eq_false_iff.2 hc)]
    split
    · rfl
    · rename_i hi'
      refine hunbound i hi (Bool.eq_false_iff.2 hc) fun hp => hi' ?_
      obtain ⟨l, hl, hil, hc'⟩ := h.mem_parameters.1 hp
      exact ⟨List.mem_flatMap.2 ⟨l, hl, hil⟩, hc'⟩

end Schema

end Strips
