import Strips.Arena
import Mathlib.Algebra.Group.Nat.Defs
import Mathlib.Data.List.Basic
import Mathlib.Data.List.Nodup
import Mathlib.Logic.Function.Basic
import Mathlib.Tactic.Common

/-!
# Classes of cells are trees

The classes of an arena are kept as trees of parents. This module says what a well-kept forest is,
and that looking for a root keeps it and is not noticed.

The rank of a cell grows on the way to its root. A root of rank `k` has a class of at least `2 ^ k`
cells, so no way is longer than the number of cells, and `Arena.climb` comes to its end.

## Main definitions

* `Arena.Ranked` – ranks grow on the way up and are bounded by the number of cells.
* `Arena.Sound` – a well-kept forest, with the class at its root.
* `Arena.SameClasses`, `Arena.Revalued` – arenas with the same classes, and with other values.

## Main results

* `Arena.Ranked.root_eq` – a labelling that parents share, and that is right at roots, is the root.
* `Arena.Sound.find` – looking for a root changes nothing that can be seen.
-/

namespace Strips

namespace Arena

/-! ### Changing all cells -/

/-- Change every cell, knowing its number. -/
def mapCells (a : Arena) (g : Nat → Cell → Cell) : Arena := ⟨a.cells.mapIdx g⟩

theorem getElem?_mapCells (a : Arena) (g : Nat → Cell → Cell) (i : Nat) :
    (a.mapCells g).cells[i]? = a.cells[i]?.map (g i) :=
  List.getElem?_mapIdx

@[simp] theorem size_mapCells (a : Arena) (g : Nat → Cell → Cell) :
    (a.mapCells g).size = a.size :=
  List.length_mapIdx

theorem mapCells_mapCells (a : Arena) (g g' : Nat → Cell → Cell) :
    (a.mapCells g).mapCells g' = a.mapCells fun i c => g' i (g i c) := by
  refine congrArg Arena.mk (List.ext_getElem? fun i => ?_)
  rw [List.getElem?_mapIdx, getElem?_mapCells, List.getElem?_mapIdx, Option.map_map]
  rfl

/-- Changing one cell. -/
theorem modify_eq_mapCells (a : Arena) (i : Nat) (f : Cell → Cell) :
    a.modify i f = a.mapCells fun j c => if j = i then f c else c := by
  refine congrArg Arena.mk (List.ext_getElem? fun j => ?_)
  rw [List.getElem?_modify, List.getElem?_mapIdx]
  by_cases hj : i = j
  · subst hj
    cases a.cells[i]? <;> simp
  · cases a.cells[j]? <;> simp [hj, Ne.symm hj]

theorem size_modify (a : Arena) (i : Nat) (f : Cell → Cell) : (a.modify i f).size = a.size :=
  List.length_modify ..

/-- Marking one cell. -/
theorem mem_partners_modify {a : Arena} {i j k m : Nat} (hi : i < a.size) :
    m ∈ (a.modify i fun c => { c with partners := c.partners.insert j }).partners k ↔
      m ∈ a.partners k ∨ k = i ∧ m = j := by
  rw [Arena.partners, Arena.partners, Arena.modify, List.getElem?_modify]
  by_cases hk : i = k
  · subst hk
    rw [List.getElem?_eq_getElem hi]
    simp [or_comm]
  · cases a.cells[k]? <;> simp [hk, Ne.symm hk]

/-- A field of a cell that is not changed. -/
theorem read_mapCells {β : Type} (field : Cell → β) {a : Arena} {g : Nat → Cell → Cell} {i : Nat}
    (hg : ∀ c, field (g i c) = field c) :
    (a.mapCells g).cells[i]?.map field = a.cells[i]?.map field := by
  rw [getElem?_mapCells, Option.map_map]
  exact congrArg (Option.map · _) (funext hg)

theorem parent_of_size_le {a : Arena} {i : Nat} (hi : a.size ≤ i) : a.parent i = i := by
  rw [parent, List.getElem?_eq_none hi]
  rfl

theorem lt_size_of_mem_partners {a : Arena} {i j : Nat} (h : j ∈ a.partners i) : i < a.size := by
  by_contra hi
  rw [partners, List.getElem?_eq_none (Nat.not_lt.1 hi)] at h
  exact List.not_mem_nil h

theorem lt_size_of_isConstant {a : Arena} {i : Nat} (h : a.isConstant i = true) : i < a.size := by
  by_contra hi
  rw [isConstant, List.getElem?_eq_none (Nat.not_lt.1 hi)] at h
  cases h

/-! ### Ways to the root -/

/-- Ranks grow on the way to the root. -/
structure Ranked (a : Arena) : Prop where
  rank_lt : ∀ i, a.parent i ≠ i → a.rank i < a.rank (a.parent i)
  rank_le : ∀ i, a.rank i ≤ a.size

/-- At the root another step changes nothing. -/
theorem climb_succ_of_parent {a : Arena} : ∀ (fuel : Nat) {i : Nat},
    a.parent (a.climb fuel i) = a.climb fuel i → a.climb (fuel + 1) i = a.climb fuel i
  | 0, i, h => if_pos h
  | fuel + 1, i, h => by
    have hstep : ∀ n, a.climb (n + 1) i = if a.parent i = i then i else a.climb n (a.parent i) :=
      fun _ => rfl
    rw [hstep] at h
    rw [hstep, hstep]
    split
    · rfl
    · rename_i hi
      rw [if_neg hi] at h
      exact climb_succ_of_parent fuel h

/-- A way with enough steps ends at a root. -/
theorem Ranked.parent_climb_of_le {a : Arena} (h : a.Ranked) : ∀ {fuel i : Nat},
    a.size ≤ fuel + a.rank i → a.parent (a.climb fuel i) = a.climb fuel i
  | 0, i, hle => by
    by_contra hi
    have := h.rank_lt i hi
    have := h.rank_le (a.parent i)
    omega
  | fuel + 1, i, hle => by
    rw [climb]
    split
    · assumption
    · rename_i hi
      have := h.rank_lt i hi
      exact h.parent_climb_of_le (by omega)

/-- A label that parents share is shared by the whole way. -/
theorem label_climb {a : Arena} {κ : Nat → Nat} (hκ : ∀ i, κ (a.parent i) = κ i) :
    ∀ fuel i, κ (a.climb fuel i) = κ i
  | 0, _ => rfl
  | fuel + 1, i => by
    rw [climb]
    split
    · rfl
    · rw [label_climb hκ fuel, hκ]

namespace Ranked

variable {a : Arena} (h : a.Ranked)

include h

/-- The end of the way is a root. -/
theorem parent_root (i : Nat) : a.parent (a.root i) = a.root i :=
  h.parent_climb_of_le (Nat.le_add_right _ _)

/-- **What the root is.** A label that parents share and that names the roots names all of them. -/
theorem root_eq (κ : Nat → Nat) (hκ : ∀ i, κ (a.parent i) = κ i)
    (hroot : ∀ i, a.parent i = i → κ i = i) (i : Nat) : a.root i = κ i := by
  rw [← label_climb hκ a.size i]
  exact (hroot _ (h.parent_root i)).symm

omit h in
theorem root_of_parent {i : Nat} (hi : a.parent i = i) : a.root i = i := by
  rw [root]
  cases a.size with
  | zero => rfl
  | succ n => rw [climb, if_pos hi]

theorem root_parent (i : Nat) : a.root (a.parent i) = a.root i := by
  by_cases hi : a.parent i = i
  · rw [hi]
  · have hlt := h.rank_lt i hi
    have hle := h.rank_le (a.parent i)
    obtain ⟨n, hn⟩ : ∃ n, a.size = n + 1 := Nat.exists_eq_succ_of_ne_zero (by omega)
    have hend : a.parent (a.climb n (a.parent i)) = a.climb n (a.parent i) :=
      h.parent_climb_of_le (by omega)
    rw [root, root, hn, climb_succ_of_parent n hend, climb, if_neg hi]

@[simp] theorem root_root (i : Nat) : a.root (a.root i) = a.root i :=
  root_of_parent (h.parent_root i)

theorem parent_eq_iff {i : Nat} : a.parent i = i ↔ a.root i = i :=
  ⟨root_of_parent, fun hi => hi ▸ h.parent_root i⟩

end Ranked

/-! ### Sound arenas -/

/-- The members of a class stand at its root, marks are made in both directions between cells of
different classes of one scope, and a constant is alone and has a value. -/
structure Sound (a : Arena) : Prop extends a.Ranked where
  parent_lt : ∀ i, i < a.size → a.parent i < a.size
  mem_members : ∀ i j, i < a.size → (j ∈ a.members i ↔ j < a.size ∧ a.root j = a.root i)
  nodup_members : ∀ i, (a.members i).Nodup
  /-- Merging by rank doubles a class before its rank grows. -/
  two_pow_rank_le : ∀ i, i < a.size → 2 ^ a.rank i ≤ (a.members i).length
  members_constant : ∀ i, a.isConstant i = true → a.members i = [i]
  isSome_constant : ∀ i, a.isConstant i = true → (a.value? i).isSome = true
  partners_comm : ∀ i j, j ∈ a.partners i → i ∈ a.partners j
  root_ne_of_mem_partners : ∀ i j, j ∈ a.partners i → a.root i ≠ a.root j
  scope_parent : ∀ i, a.scope (a.parent i) = a.scope i
  scope_of_mem_partners : ∀ i j, j ∈ a.partners i → a.scope j = a.scope i

/-- Two arenas with the same cells in the same classes. -/
structure SameClasses (a b : Arena) : Prop where
  size : b.size = a.size
  root : b.root = a.root
  members : b.members = a.members
  isConstant : b.isConstant = a.isConstant
  scope : b.scope = a.scope

theorem SameClasses.refl (a : Arena) : a.SameClasses a := ⟨rfl, rfl, rfl, rfl, rfl⟩

theorem SameClasses.trans {a b c : Arena} (h : a.SameClasses b) (h' : b.SameClasses c) :
    a.SameClasses c :=
  ⟨h'.size.trans h.size, h'.root.trans h.root, h'.members.trans h.members,
    h'.isConstant.trans h.isConstant, h'.scope.trans h.scope⟩

/-- A sound arena in which only the values of the classes are others. -/
structure Revalued (a : Arena) (ν : Nat → Option String) (b : Arena) : Prop where
  sound : b.Sound
  same : a.SameClasses b
  partners : b.partners = a.partners
  value? : b.value? = ν

theorem value?_eq_of_root {a : Arena} {i j : Nat} (hij : a.root i = a.root j) :
    a.value? i = a.value? j := by
  rw [value?, value?, hij]

namespace Sound

variable {a : Arena} (h : a.Sound)

include h

theorem root_lt {i : Nat} (hi : i < a.size) : a.root i < a.size := by
  have hclimb : ∀ fuel j, j < a.size → a.climb fuel j < a.size := by
    intro fuel
    induction fuel with
    | zero => exact fun j hj => hj
    | succ fuel ih =>
      intro j hj
      rw [climb]
      split
      · exact hj
      · exact ih _ (h.parent_lt j hj)
  exact hclimb _ i hi

theorem mem_members_self {i : Nat} (hi : i < a.size) : i ∈ a.members i :=
  (h.mem_members i i hi).2 ⟨hi, rfl⟩

/-- A class is known by any of its cells. -/
theorem members_eq_of_root {i j : Nat} (hi : i < a.size) (hij : a.root i = a.root j) :
    a.members i = a.members j := by
  have hr := h.root_lt hi
  rw [members, members, ← hij, List.getElem?_eq_getElem hr]
  rfl

theorem value?_root (i : Nat) : a.value? (a.root i) = a.value? i :=
  value?_eq_of_root (h.root_root i)

theorem scope_root (i : Nat) : a.scope (a.root i) = a.scope i :=
  label_climb h.scope_parent a.size i

/-- A constant is a class of its own. -/
theorem eq_of_root_eq {i j : Nat} (hi : a.isConstant i = true) (hij : a.root j = a.root i) :
    j = i := by
  have hlt := lt_size_of_isConstant hi
  by_cases hj : j < a.size
  · have hmem := (h.mem_members i j hlt).2 ⟨hj, hij⟩
    rwa [h.members_constant i hi, List.mem_singleton] at hmem
  · -- a cell that was never made is its own root
    have hroot := Ranked.root_of_parent (parent_of_size_le (Nat.not_lt.1 hj))
    have := h.root_lt hlt
    omega

theorem root_constant {i : Nat} (hi : a.isConstant i = true) : a.root i = i :=
  h.eq_of_root_eq hi (h.root_root i)

theorem rank_le_root (i : Nat) : a.rank i ≤ a.rank (a.root i) := by
  have hclimb : ∀ fuel j, a.rank j ≤ a.rank (a.climb fuel j) := by
    intro fuel
    induction fuel with
    | zero => exact fun j => Nat.le_refl _
    | succ fuel ih =>
      intro j
      rw [climb]
      split
      · exact Nat.le_refl _
      · rename_i hj
        exact Nat.le_trans (Nat.le_of_lt (h.rank_lt j hj)) (ih _)
  exact hclimb _ i

theorem rank_lt_root {i : Nat} (hi : a.root i ≠ i) : a.rank i < a.rank (a.root i) := by
  have hparent : a.parent i ≠ i := fun hp => hi (Ranked.root_of_parent hp)
  rw [← h.root_parent]
  exact Nat.lt_of_lt_of_le (h.rank_lt i hparent) (h.rank_le_root _)

/-- Marks have partners that exist. -/
theorem lt_of_mem_partners {i j : Nat} (hj : j ∈ a.partners i) : j < a.size :=
  lt_size_of_mem_partners (h.partners_comm i j hj)

end Sound

/-! ### Changes that keep the trees -/

/-- A change of cells that leaves the trees, the scopes and the constants as they are. -/
structure KeepsTrees (g : Nat → Cell → Cell) : Prop where
  parent : ∀ i c, (g i c).parent = c.parent
  rank : ∀ i c, (g i c).rank = c.rank
  members : ∀ i c, (g i c).members = c.members
  constant : ∀ i c, (g i c).constant = c.constant
  scope : ∀ i c, (g i c).scope = c.scope

theorem climb_congr {a b : Arena} (hparent : ∀ i, b.parent i = a.parent i) :
    ∀ fuel i, b.climb fuel i = a.climb fuel i
  | 0, _ => rfl
  | fuel + 1, i => by rw [climb, climb, hparent, climb_congr hparent fuel]

namespace KeepsTrees

variable {g : Nat → Cell → Cell} (hg : KeepsTrees g) (a : Arena)

include hg

theorem parent_mapCells (i : Nat) : (a.mapCells g).parent i = a.parent i := by
  rw [Arena.parent, read_mapCells Cell.parent (hg.parent i), Arena.parent]

theorem rank_mapCells (i : Nat) : (a.mapCells g).rank i = a.rank i := by
  rw [Arena.rank, read_mapCells Cell.rank (hg.rank i), Arena.rank]

theorem sameClasses : a.SameClasses (a.mapCells g) := by
  have hroot : (a.mapCells g).root = a.root := funext fun i => by
    rw [root, root, size_mapCells, climb_congr (hg.parent_mapCells a)]
  refine ⟨size_mapCells a g, hroot, funext fun i => ?_, funext fun i => ?_, funext fun i => ?_⟩
  · rw [Arena.members, hroot, read_mapCells Cell.members (hg.members _), Arena.members]
  · rw [isConstant, read_mapCells Cell.constant (hg.constant i), isConstant]
  · rw [Arena.scope, read_mapCells Cell.scope (hg.scope i), Arena.scope]

/-- A sound arena stays sound if values and marks are changed as they should. -/
theorem sound {a : Arena} (h : a.Sound)
    (hsome : ∀ i, a.isConstant i = true → ((a.mapCells g).value? i).isSome = true)
    (hcomm : ∀ i j, j ∈ (a.mapCells g).partners i → i ∈ (a.mapCells g).partners j)
    (hmarks : ∀ i j, j ∈ (a.mapCells g).partners i → a.root i ≠ a.root j ∧ a.scope j = a.scope i) :
    (a.mapCells g).Sound := by
  have hs := hg.sameClasses a
  refine
    { rank_lt := fun i => ?_
      rank_le := fun i => ?_
      parent_lt := fun i => ?_
      mem_members := ?_
      nodup_members := ?_
      two_pow_rank_le := fun i => ?_
      members_constant := ?_
      isSome_constant := ?_
      partners_comm := hcomm
      root_ne_of_mem_partners := ?_
      scope_parent := fun i => ?_
      scope_of_mem_partners := ?_ }
  · rw [hg.parent_mapCells, hg.rank_mapCells, hg.rank_mapCells]
    exact h.rank_lt i
  · rw [hg.rank_mapCells, size_mapCells]
    exact h.rank_le i
  · rw [hg.parent_mapCells, size_mapCells]
    exact h.parent_lt i
  · rw [hs.members, hs.size, hs.root]
    exact h.mem_members
  · rw [hs.members]
    exact h.nodup_members
  · rw [hg.rank_mapCells, hs.members, hs.size]
    exact h.two_pow_rank_le i
  · rw [hs.members, hs.isConstant]
    exact h.members_constant
  · rw [hs.isConstant]
    exact hsome
  · rw [hs.root]
    exact fun i j hj => (hmarks i j hj).1
  · rw [hg.parent_mapCells, hs.scope]
    exact h.scope_parent i
  · rw [hs.scope]
    exact fun i j hj => (hmarks i j hj).2

end KeepsTrees

/-! ### Changing values -/

/-- Change values only. -/
def revalue (a : Arena) (ν : Nat → Cell → Option String) : Arena :=
  a.mapCells fun i c => { c with value := ν i c }

theorem revalue_revalue (a : Arena) (ν μ : Nat → Cell → Option String) :
    (a.revalue ν).revalue μ = a.revalue fun i c => μ i { c with value := ν i c } :=
  mapCells_mapCells _ _ _

theorem keepsTrees_revalue (ν : Nat → Cell → Option String) :
    KeepsTrees fun i c => { c with value := ν i c } :=
  ⟨fun _ _ => rfl, fun _ _ => rfl, fun _ _ => rfl, fun _ _ => rfl, fun _ _ => rfl⟩

theorem sameClasses_revalue (a : Arena) (ν : Nat → Cell → Option String) :
    a.SameClasses (a.revalue ν) :=
  (keepsTrees_revalue ν).sameClasses a

theorem partners_revalue (a : Arena) (ν : Nat → Cell → Option String) :
    (a.revalue ν).partners = a.partners := funext fun i => by
  rw [partners, revalue, read_mapCells Cell.partners, partners]
  exact fun _ => rfl

theorem value?_revalue (a : Arena) (ν : Nat → Cell → Option String) (i : Nat) :
    (a.revalue ν).value? i = a.cells[a.root i]?.bind (ν (a.root i)) := by
  rw [value?, (a.sameClasses_revalue ν).root, revalue, getElem?_mapCells]
  cases a.cells[a.root i]? <;> rfl

theorem Sound.revalue {a : Arena} (h : a.Sound) {ν : Nat → Cell → Option String}
    (hν : ∀ i, a.isConstant i = true → ((a.revalue ν).value? i).isSome = true) :
    (a.revalue ν).Sound := by
  have hpartners := a.partners_revalue ν
  refine (keepsTrees_revalue ν).sound h hν (fun i j hj => ?_) fun i j hj => ?_
  · exact hpartners ▸ h.partners_comm i j (hpartners ▸ hj)
  · have hj' : j ∈ a.partners i := hpartners ▸ hj
    exact ⟨h.root_ne_of_mem_partners i j hj', h.scope_of_mem_partners i j hj'⟩

/-! ### Shortening ways -/

/-- Give every cell another parent. -/
def reparent (a : Arena) (π : Nat → Nat) : Arena :=
  a.mapCells fun i c => { c with parent := π i }

/-- Ways are shortened: the parent of a cell stays, or is the root. -/
def Shortens (a : Arena) (π : Nat → Nat) : Prop := ∀ i, π i = a.parent i ∨ π i = a.root i

theorem reparent_parent (a : Arena) : a.reparent a.parent = a := by
  have hcells : (a.reparent a.parent).cells = a.cells := by
    refine List.ext_getElem? fun i => ?_
    rw [reparent, getElem?_mapCells, parent]
    cases a.cells[i]? <;> rfl
  cases a
  exact congrArg Arena.mk hcells

theorem reparent_reparent (a : Arena) (π π' : Nat → Nat) :
    (a.reparent π).reparent π' = a.reparent π' := by
  refine congrArg Arena.mk (List.ext_getElem? fun i => ?_)
  rw [List.getElem?_mapIdx, reparent, getElem?_mapCells, List.getElem?_mapIdx, Option.map_map]
  rfl

theorem parent_reparent {a : Arena} {π : Nat → Nat} (hπ : a.Shortens π) (i : Nat) :
    (a.reparent π).parent i = π i := by
  by_cases hi : i < a.size
  · rw [parent, reparent, getElem?_mapCells, List.getElem?_eq_getElem hi]
    rfl
  · have hparent : a.parent i = i := parent_of_size_le (Nat.not_lt.1 hi)
    have hroot : a.root i = i := Ranked.root_of_parent hparent
    rw [parent_of_size_le (by rw [reparent, size_mapCells]; exact Nat.not_lt.1 hi)]
    rcases hπ i with hi' | hi' <;> omega

theorem rank_reparent (a : Arena) (π : Nat → Nat) (i : Nat) : (a.reparent π).rank i = a.rank i := by
  rw [rank, reparent, read_mapCells Cell.rank, rank]
  exact fun _ => rfl

theorem partners_reparent (a : Arena) (π : Nat → Nat) : (a.reparent π).partners = a.partners :=
  funext fun i => by
    rw [partners, reparent, read_mapCells Cell.partners, partners]
    exact fun _ => rfl

namespace Sound

variable {a : Arena} (h : a.Sound) {π : Nat → Nat} (hπ : a.Shortens π)

include h hπ

theorem ranked_reparent : (a.reparent π).Ranked := by
  refine ⟨fun i hi => ?_, fun i => ?_⟩
  · rw [parent_reparent hπ] at hi ⊢
    rw [rank_reparent, rank_reparent]
    rcases hπ i with heq | heq
    · rw [heq] at hi ⊢
      exact h.rank_lt i hi
    · rw [heq] at hi ⊢
      exact h.rank_lt_root hi
  · rw [rank_reparent, reparent, size_mapCells]
    exact h.rank_le i

/-- Shorter ways lead to the same roots. -/
theorem root_reparent : (a.reparent π).root = a.root := by
  refine funext ((h.ranked_reparent hπ).root_eq a.root (fun i => ?_) fun i hi => ?_)
  · rw [parent_reparent hπ]
    rcases hπ i with heq | heq
    · rw [heq, h.root_parent]
    · rw [heq, h.root_root]
  · rw [parent_reparent hπ] at hi
    rcases hπ i with heq | heq
    · exact Ranked.root_of_parent (heq.symm.trans hi)
    · exact heq.symm.trans hi

theorem sameClasses_reparent : a.SameClasses (a.reparent π) := by
  have hroot := h.root_reparent hπ
  refine ⟨size_mapCells _ _, hroot, funext fun i => ?_, funext fun i => ?_, funext fun i => ?_⟩
  · rw [members, hroot, reparent, read_mapCells Cell.members, members]
    exact fun _ => rfl
  · rw [isConstant, reparent, read_mapCells Cell.constant, isConstant]
    exact fun _ => rfl
  · rw [scope, reparent, read_mapCells Cell.scope, scope]
    exact fun _ => rfl

theorem value?_reparent : (a.reparent π).value? = a.value? := funext fun i => by
  rw [value?, h.root_reparent hπ, reparent, getElem?_mapCells, value?]
  cases a.cells[a.root i]? <;> rfl

theorem reparent : (a.reparent π).Sound := by
  have hs := h.sameClasses_reparent hπ
  have hvalue := h.value?_reparent hπ
  have hpartners := partners_reparent a π
  refine
    { toRanked := h.ranked_reparent hπ
      parent_lt := fun i hi => ?_
      mem_members := ?_
      nodup_members := ?_
      two_pow_rank_le := fun i => ?_
      members_constant := ?_
      isSome_constant := ?_
      partners_comm := ?_
      root_ne_of_mem_partners := ?_
      scope_parent := fun i => ?_
      scope_of_mem_partners := ?_ }
  · rw [hs.size] at hi ⊢
    rw [parent_reparent hπ]
    rcases hπ i with heq | heq
    · rw [heq]
      exact h.parent_lt i hi
    · rw [heq]
      exact h.root_lt hi
  · rw [hs.members, hs.size, hs.root]
    exact h.mem_members
  · rw [hs.members]
    exact h.nodup_members
  · rw [rank_reparent, hs.members, hs.size]
    exact h.two_pow_rank_le i
  · rw [hs.members, hs.isConstant]
    exact h.members_constant
  · rw [hs.isConstant, hvalue]
    exact h.isSome_constant
  · rw [hpartners]
    exact h.partners_comm
  · rw [hpartners, hs.root]
    exact h.root_ne_of_mem_partners
  · rw [hs.scope, parent_reparent hπ]
    rcases hπ i with heq | heq
    · rw [heq, h.scope_parent]
    · rw [heq, h.scope_root]
  · rw [hpartners, hs.scope]
    exact h.scope_of_mem_partners

end Sound

/-- Giving one cell another parent. -/
theorem modify_parent (a : Arena) (i r : Nat) :
    (a.modify i fun c => { c with parent := r }) =
      a.reparent (Function.update a.parent i r) := by
  rw [modify_eq_mapCells]
  refine congrArg Arena.mk (List.ext_getElem? fun j => ?_)
  rw [List.getElem?_mapIdx, List.getElem?_mapIdx]
  refine Option.map_congr fun c hc => ?_
  by_cases hj : j = i
  · rw [if_pos hj, hj, Function.update_self]
  · have hparent : a.parent j = c.parent := by rw [parent, hc]; rfl
    rw [if_neg hj, Function.update_of_ne hj, hparent]

/-- Pointing one cell at its root shortens ways. -/
theorem shortens_update (a : Arena) (i : Nat) :
    a.Shortens (Function.update a.parent i (a.root i)) := by
  intro j
  by_cases hj : j = i
  · rw [hj, Function.update_self]
    exact .inr rfl
  · exact .inl (Function.update_of_ne hj _ _)

/-- Compressing the way of a cell shortens ways. -/
theorem Sound.exists_compress : ∀ (fuel : Nat) {a : Arena}, a.Sound → ∀ (i : Nat),
    ∃ π, a.Shortens π ∧ a.compress (a.root i) fuel i = a.reparent π
  | 0, a, _, _ => ⟨a.parent, fun _ => .inl rfl, a.reparent_parent.symm⟩
  | fuel + 1, a, h, i => by
    rw [compress]
    split
    · exact ⟨a.parent, fun _ => .inl rfl, a.reparent_parent.symm⟩
    · have hπ := a.shortens_update i
      -- the rest of the old way leads to the same root
      have hroot := h.root_reparent hπ
      obtain ⟨π, hshort, heq⟩ := exists_compress fuel (h.reparent hπ) (a.parent i)
      rw [hroot, h.root_parent] at heq
      refine ⟨π, fun j => ?_, ?_⟩
      · rcases hshort j with hj | hj
        · rw [parent_reparent hπ] at hj
          exact hj ▸ hπ j
        · exact .inr (hj.trans (congrFun hroot j))
      · rw [modify_parent, heq, reparent_reparent]

/-- **Looking for a root is not noticed.** -/
theorem Sound.find {a : Arena} (h : a.Sound) (i : Nat) : a.Revalued a.value? (a.find i).2 := by
  obtain ⟨π, hπ, heq⟩ := h.exists_compress a.size i
  have hfind : (a.find i).2 = a.reparent π := heq
  rw [hfind]
  exact ⟨h.reparent hπ, h.sameClasses_reparent hπ, partners_reparent a π, h.value?_reparent hπ⟩

end Arena

end Strips
