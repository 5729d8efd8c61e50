import Strips.Arena
import Mathlib.Logic.Function.Basic

/-!
# Arenas without links

The cells of one statement of a problem text are never linked: each variable and each occurrence of
a constant is a class of its own. In such a *loose* arena nothing but values ever changes, so an
arena that arises from it is the loose one `withValues` of an assignment, and the operations on
cells are operations on assignments.

## Main definitions

* `Arena.Loose` – every cell is a class of its own.
* `Arena.withValues` – the arena with the values of an assignment.
* `Arena.Proper` – an assignment that keeps cells apart that are marked distinct.
* `Arena.Grows` – what binding cells does to an assignment.

## Main results

* `Arena.Loose.bind_withValues`, `Arena.Loose.clear_withValues` – binding and clearing.
* `Arena.Loose.grows_bind`, `Arena.Loose.isExcluded_of_agrees` – what a binding that is accepted
  does to an assignment, and which bindings are accepted.
-/

namespace Strips

namespace Arena

/-- The arena in which each cell has the value that an assignment gives to it. -/
def withValues (a : Arena) (ρ : Nat → Option String) : Arena :=
  ⟨a.cells.mapIdx fun i c => { c with value := ρ i }⟩

/-- Every cell is a class of its own, and marks are made in both directions between two cells. -/
structure Loose (a : Arena) : Prop where
  /-- A cell is its own root and the only member of its class. -/
  cell : ∀ (i : Nat) (c : Cell), a.cells[i]? = some c → c.parent = i ∧ c.members = [i]
  marks_symm : ∀ i j, j ∈ a.partners i → i ∈ a.partners j
  marks_irrefl : ∀ i, i ∉ a.partners i

section

variable (a : Arena) (ρ : Nat → Option String) (i : Nat)

theorem getElem?_cells_withValues :
    (a.withValues ρ).cells[i]? = a.cells[i]?.map fun c => { c with value := ρ i } :=
  List.getElem?_mapIdx

@[simp] theorem partners_withValues : (a.withValues ρ).partners i = a.partners i := by
  rw [partners, getElem?_cells_withValues, Option.map_map, partners]
  rfl

@[simp] theorem isConstant_withValues : (a.withValues ρ).isConstant i = a.isConstant i := by
  rw [isConstant, getElem?_cells_withValues, Option.map_map, isConstant]
  rfl

theorem cells_eq_none_iff {a : Arena} {i : Nat} : a.cells[i]? = none ↔ a.size ≤ i :=
  List.getElem?_eq_none_iff

end

namespace Loose

variable {a : Arena} (h : a.Loose)

include h

theorem withValues (ρ : Nat → Option String) : (a.withValues ρ).Loose where
  cell i c hc := by
    rw [getElem?_cells_withValues] at hc
    obtain ⟨d, hd, rfl⟩ := Option.map_eq_some_iff.1 hc
    exact h.cell i d hd
  marks_symm i j := by
    rw [partners_withValues, partners_withValues]
    exact h.marks_symm i j
  marks_irrefl i := by
    rw [partners_withValues]
    exact h.marks_irrefl i

theorem lt_of_mem_partners {i j : Nat} (hj : j ∈ a.partners i) : j < a.size := by
  by_contra hlt
  have hi := h.marks_symm i j hj
  rw [partners, cells_eq_none_iff.2 (Nat.not_lt.1 hlt)] at hi
  exact List.not_mem_nil hi

/-! ### Every cell is a root -/

theorem parent (i : Nat) : a.parent i = i := by
  rw [Arena.parent]
  cases hc : a.cells[i]? with
  | none => rfl
  | some c => exact (h.cell i c hc).1

theorem root (i : Nat) : a.root i = i := by
  rw [Arena.root]
  cases a.size with
  | zero => rfl
  | succ n => rw [climb, if_pos (h.parent i)]

theorem find (i : Nat) : a.find i = (i, a) := by
  rw [Arena.find, h.root]
  cases a.size with
  | zero => rfl
  | succ n => rw [compress, if_pos (h.parent i)]

theorem members (i : Nat) : a.members i = [i] := by
  rw [Arena.members, h.root]
  cases hc : a.cells[i]? with
  | none => rfl
  | some c => simp [(h.cell i c hc).2]

theorem value? (i : Nat) : a.value? i = a.cells[i]?.bind Cell.value := by rw [Arena.value?, h.root]

theorem value?_withValues (ρ : Nat → Option String) (i : Nat) :
    (a.withValues ρ).value? i = if i < a.size then ρ i else none := by
  rw [(h.withValues ρ).value?, getElem?_cells_withValues]
  split
  · rename_i hi
    rw [List.getElem?_eq_getElem hi]
    rfl
  · rename_i hi
    rw [cells_eq_none_iff.2 (Nat.not_lt.1 hi)]
    rfl

/-- A loose arena is given by its values. -/
theorem withValues_value? : a.withValues a.value? = a := by
  have hcells : (a.withValues a.value?).cells = a.cells := by
    refine List.ext_getElem? fun i => ?_
    rw [getElem?_cells_withValues, h.value?]
    cases a.cells[i]? <;> rfl
  cases a
  exact congrArg Arena.mk hcells

omit h in
/-- Changing one value is changing the assignment at one cell. -/
theorem modify_withValues (ρ : Nat → Option String) (i : Nat) (v : Option String) :
    ((a.withValues ρ).modify i fun c => { c with value := v }) =
      a.withValues (Function.update ρ i v) := by
  refine congrArg Arena.mk (List.ext_getElem? fun j => ?_)
  rw [List.getElem?_modify, getElem?_cells_withValues, List.getElem?_mapIdx]
  by_cases hij : i = j
  · subst hij
    cases a.cells[i]? <;> simp
  · rw [Function.update_of_ne (Ne.symm hij)]
    cases a.cells[j]? <;> simp [hij]

/-! ### Binding and clearing -/

theorem isExcluded_iff {i : Nat} {v : String} :
    a.isExcluded i v = true ↔ ∃ j ∈ a.partners i, a.value? j = some v := by
  simp [isExcluded, h.members]

/-- Binding a cell that is not bound. -/
theorem bind_withValues {ρ : Nat → Option String} {i : Nat} {v : String}
    (hi : (a.withValues ρ).value? i = none) :
    (a.withValues ρ).bind i v =
      if (a.withValues ρ).isExcluded i v then (false, a.withValues ρ)
      else (true, a.withValues (Function.update ρ i (some v))) := by
  rw [bind, (h.withValues ρ).find]
  simp only [hi, modify_withValues]

theorem clear_withValues (ρ : Nat → Option String) (i : Nat) :
    (a.withValues ρ).clear i =
      a.withValues (if a.isConstant i then ρ else Function.update ρ i none) := by
  rw [clear, isConstant_withValues]
  split
  · rfl
  · rw [(h.withValues ρ).find]
    exact modify_withValues ρ i none

end Loose

/-! ### Assignments -/

/-- Cells that are marked distinct do not get one value, two constants apart. -/
def Proper (a : Arena) (ρ : Nat → Option String) : Prop :=
  ∀ i j v, j ∈ a.partners i → ρ i = some v → ρ j = some v →
    a.isConstant i = true ∧ a.isConstant j = true

/-- An assignment arises from another one by binding cells to some of the values `vs`. -/
structure Grows (a : Arena) (vs : List String) (ρ ρ' : Nat → Option String) : Prop where
  /-- What is bound stays as it is. -/
  keeps : ∀ i v, ρ i = some v → ρ' i = some v
  /-- What is new is among the given values. -/
  source : ∀ i v, ρ' i = some v → ρ i = some v ∨ v ∈ vs
  /-- Marks are respected. -/
  proper : a.Proper ρ → a.Proper ρ'

theorem Grows.refl (a : Arena) (vs : List String) (ρ : Nat → Option String) : a.Grows vs ρ ρ :=
  ⟨fun _ _ h => h, fun _ _ h => .inl h, id⟩

theorem Grows.trans {a : Arena} {vs : List String} {ρ₁ ρ₂ ρ₃ : Nat → Option String}
    (h : a.Grows vs ρ₁ ρ₂) (h' : a.Grows vs ρ₂ ρ₃) : a.Grows vs ρ₁ ρ₃ where
  keeps i v hi := h'.keeps i v (h.keeps i v hi)
  source i v hi := (h'.source i v hi).elim (h.source i v) .inr
  proper hp := h'.proper (h.proper hp)

theorem Grows.mono {a : Arena} {vs ws : List String} {ρ ρ' : Nat → Option String}
    (h : a.Grows vs ρ ρ') (hvw : ∀ v ∈ vs, v ∈ ws) : a.Grows ws ρ ρ' where
  keeps := h.keeps
  source i v hi := (h.source i v hi).imp_right (hvw v)
  proper := h.proper

/-- A binding that is accepted. -/
theorem Loose.grows_bind {a : Arena} (h : a.Loose) {ρ : Nat → Option String} {i : Nat}
    {v : String} (hρ : ρ i = none) (hv : (a.withValues ρ).isExcluded i v = false) :
    a.Grows [v] ρ (Function.update ρ i (some v)) := by
  have hfree : ∀ j ∈ a.partners i, ρ j ≠ some v := by
    intro j hj hjv
    have hval : (a.withValues ρ).value? j = some v := by
      rw [h.value?_withValues, if_pos (h.lt_of_mem_partners hj), hjv]
    rw [(h.withValues ρ).isExcluded_iff.2 ⟨j, by rwa [partners_withValues], hval⟩] at hv
    exact Bool.noConfusion hv
  refine ⟨fun j w hj => ?_, fun j w hj => ?_, fun hp j k w hk hjw hkw => ?_⟩
  · rwa [Function.update_of_ne (by rintro rfl; rw [hρ] at hj; cases hj)]
  · by_cases hji : j = i
    · subst hji
      rw [Function.update_self] at hj
      exact .inr (List.mem_singleton.2 (Option.some.inj hj).symm)
    · rw [Function.update_of_ne hji] at hj
      exact .inl hj
  · by_cases hji : j = i
    · subst hji
      have hkj : k ≠ j := by
        rintro rfl
        exact h.marks_irrefl k hk
      rw [Function.update_self] at hjw
      rw [Function.update_of_ne hkj, ← hjw] at hkw
      exact absurd hkw (hfree k hk)
    · rw [Function.update_of_ne hji] at hjw
      by_cases hki : k = i
      · subst hki
        rw [Function.update_self, ← hjw] at hkw
        exact absurd hkw.symm (hfree j (h.marks_symm j k hk))
      · rw [Function.update_of_ne hki] at hkw
        exact hp j k w hk hjw hkw

/-! ### Agreement with a substitution -/

/-- A substitution has the values that an assignment has, where it has any. -/
def Agrees (ρ : Nat → Option String) (σ : Nat → String) : Prop := ∀ i v, ρ i = some v → σ i = v

theorem Agrees.update {ρ : Nat → Option String} {σ : Nat → String} (h : Agrees ρ σ) (i : Nat) :
    Agrees (Function.update ρ i (some (σ i))) σ := by
  intro j v hj
  by_cases hji : j = i
  · subst hji
    rw [Function.update_self] at hj
    exact Option.some.inj hj
  · rw [Function.update_of_ne hji] at hj
    exact h j v hj

/-- A substitution gives different values to cells that are marked distinct, two constants apart. -/
def Separates (a : Arena) (σ : Nat → String) : Prop :=
  ∀ i j, j ∈ a.partners i → (a.isConstant i && a.isConstant j) = false → σ i ≠ σ j

/-- No binding that follows a separating substitution is refused. -/
theorem Loose.isExcluded_of_agrees {a : Arena} (h : a.Loose) {ρ : Nat → Option String}
    {σ : Nat → String} (hσ : a.Separates σ) (hρ : Agrees ρ σ) {i : Nat}
    (hi : a.isConstant i = false) : (a.withValues ρ).isExcluded i (σ i) = false := by
  rw [Bool.eq_false_iff]
  intro hex
  obtain ⟨j, hj, hval⟩ := (h.withValues ρ).isExcluded_iff.1 hex
  rw [partners_withValues] at hj
  rw [h.value?_withValues, if_pos (h.lt_of_mem_partners hj)] at hval
  exact hσ i j hj (by rw [hi, Bool.false_and]) (hρ j _ hval).symm

end Arena

end Strips
