import Strips.Proofs.Forest

/-!
# Making arenas

Cells that were made and marked, but never linked, are a forest of single roots, which is sound
whatever the marks are. The disjoint union of two sound arenas is sound, since nothing that can be
seen of either one changes. A new cell is the union with an arena of one cell.

## Main definitions

* `Arena.AllNew` – an arena as it is while cells are made and marked.
* `Arena.Extended` – an arena with a cell more.

## Main results

* `Arena.AllNew.sound` – cells as they are made.
* `Arena.Sound.append` – the disjoint union.
* `Arena.Sound.newCell` – a new cell.
-/

namespace Strips

/-- A cell moved by an offset, into a later scope. -/
def Cell.moved (offset scope : Nat) (c : Cell) : Cell :=
  { c with
    scope := c.scope + scope
    parent := c.parent + offset
    partners := c.partners.map (· + offset)
    members := c.members.map (· + offset) }

namespace Arena

/-! ### Cells as they are made

While a statement is read, cells are made and marked but neither linked nor bound later. Such an
arena is sound as soon as its marks are, because each cell is a class of its own. -/

/-- A cell as it is made, marks apart: its own root, the only member of its class, and with a value
exactly if it is a constant. -/
structure IsNew (i : Nat) (c : Cell) : Prop where
  scope : c.scope = 0
  parent : c.parent = i
  rank : c.rank = 0
  members : c.members = [i]
  value : c.value.isSome = c.constant

/-- All cells are as they were made, marks apart. -/
def AllNew (a : Arena) : Prop := ∀ i c, a.cells[i]? = some c → IsNew i c

namespace AllNew

variable {a : Arena} (h : a.AllNew)

include h

/-- What all new cells have is what is read of cells that were never made, too. -/
theorem read {β : Type} (field : Cell → β) {i : Nat} {d : β}
    (hd : ∀ c, IsNew i c → field c = d) : (a.cells[i]?.map field).getD d = d := by
  cases hc : a.cells[i]? with
  | none => rfl
  | some c => exact hd c (h i c hc)

theorem parent (i : Nat) : a.parent i = i := h.read Cell.parent fun _ hc => hc.parent

theorem rank (i : Nat) : a.rank i = 0 := h.read Cell.rank fun _ hc => hc.rank

theorem scope (i : Nat) : a.scope i = 0 := h.read Cell.scope fun _ hc => hc.scope

theorem root (i : Nat) : a.root i = i := Ranked.root_of_parent (h.parent i)

theorem members (i : Nat) : a.members i = [i] := by
  rw [Arena.members, h.root]
  exact h.read Cell.members fun _ hc => hc.members

theorem isSome_value? (i : Nat) : (a.value? i).isSome = a.isConstant i := by
  rw [Arena.value?, h.root, Arena.isConstant]
  cases hc : a.cells[i]? with
  | none => rfl
  | some c => exact (h i c hc).value

/-- **Cells as they are made**, with marks in both directions between different ones, are sound. -/
theorem sound (hcomm : ∀ i j, j ∈ a.partners i → i ∈ a.partners j)
    (hirrefl : ∀ i, i ∉ a.partners i) : a.Sound := by
  refine
    { rank_lt := fun i hi => absurd (h.parent i) hi
      rank_le := fun i => by rw [h.rank]; exact Nat.zero_le _
      parent_lt := fun i hi => by rwa [h.parent]
      mem_members := fun i j hi => ?_
      nodup_members := fun i => by rw [h.members]; exact List.nodup_singleton i
      two_pow_rank_le := fun i _ => by rw [h.rank, h.members]; exact Nat.le_refl 1
      members_constant := fun i _ => h.members i
      isSome_constant := fun i hi => (h.isSome_value? i).trans hi
      partners_comm := hcomm
      root_ne_of_mem_partners := fun i j hj => ?_
      scope_parent := fun i => by rw [h.parent]
      scope_of_mem_partners := fun i j _ => by rw [h.scope, h.scope] }
  · rw [h.members, List.mem_singleton, h.root, h.root]
    constructor
    · rintro rfl
      exact ⟨hi, rfl⟩
    · exact fun hj => hj.2
  · rw [h.root, h.root]
    rintro rfl
    exact hirrefl i hj

end AllNew

theorem sound_empty : empty.Sound := by
  have hnew : empty.AllNew := fun i c hc => by simp [empty] at hc
  have hpartners : ∀ i, empty.partners i = [] := fun i => by simp [partners, empty]
  refine hnew.sound (fun i j hj => ?_) fun i hi => ?_
  · rw [hpartners] at hj
    cases hj
  · rw [hpartners] at hi
    cases hi

/-! ### Disjoint unions

The cells of the second arena come behind those of the first, and all that refers to cells is moved
with them. So a question about a cell of the union is one about a cell of one of the parts: for
every field there is a lemma on the left and one on the right, and the roots, members and values
follow from them. -/

section Append

variable (a b : Arena) (scope : Nat)

@[simp] theorem size_append : (a.append b scope).size = a.size + b.size := by
  simp [append, size]

/-- A cell of the union is one of the first arena, or one of the second or beyond. -/
theorem append_cases {P : Nat → Prop} (left : ∀ i < a.size, P i) (right : ∀ i, P (i + a.size))
    (i : Nat) : P i := by
  by_cases hi : i < a.size
  · exact left i hi
  · obtain ⟨j, rfl⟩ := Nat.exists_eq_add_of_le' (Nat.not_lt.1 hi)
    exact right j

theorem getElem?_append_left {i : Nat} (hi : i < a.size) :
    (a.append b scope).cells[i]? = a.cells[i]? :=
  List.getElem?_append_left hi

theorem getElem?_append_right (i : Nat) :
    (a.append b scope).cells[i + a.size]? = b.cells[i]?.map (Cell.moved a.size scope) := by
  have hright : (a.append b scope).cells[i + a.size]? =
      (b.cells.map (Cell.moved a.size scope))[i + a.size - a.size]? :=
    List.getElem?_append_right (Nat.le_add_left a.size i)
  rwa [Nat.add_sub_cancel, List.getElem?_map] at hright

/-- What is read of a cell of the first arena. -/
theorem read_append_left {β : Type} (field : Cell → β) {i : Nat} (hi : i < a.size) :
    (a.append b scope).cells[i]?.map field = a.cells[i]?.map field :=
  congrArg (Option.map field) (a.getElem?_append_left b scope hi)

/-- What is read of a cell of the second arena, as moving changes it. -/
theorem read_append_right {β : Type} (field : Cell → β) (g : β → β) (i : Nat)
    (hfield : ∀ c : Cell, field (c.moved a.size scope) = g (field c)) :
    (a.append b scope).cells[i + a.size]?.map field = (b.cells[i]?.map field).map g := by
  rw [getElem?_append_right, Option.map_map, Option.map_map]
  exact congrArg (Option.map · _) (funext hfield)

theorem parent_append_left {i : Nat} (hi : i < a.size) :
    (a.append b scope).parent i = a.parent i := by
  rw [parent, read_append_left _ _ _ _ hi, parent]

theorem parent_append_right (i : Nat) :
    (a.append b scope).parent (i + a.size) = b.parent i + a.size := by
  rw [parent, read_append_right a b scope Cell.parent (· + a.size) i fun _ => rfl]
  exact Option.getD_map (· + a.size) i _

theorem rank_append_left {i : Nat} (hi : i < a.size) :
    (a.append b scope).rank i = a.rank i := by
  rw [rank, read_append_left _ _ _ _ hi, rank]

theorem rank_append_right (i : Nat) : (a.append b scope).rank (i + a.size) = b.rank i := by
  rw [rank, read_append_right a b scope Cell.rank id i fun _ => rfl, Option.map_id]
  rfl

theorem isConstant_append_left {i : Nat} (hi : i < a.size) :
    (a.append b scope).isConstant i = a.isConstant i := by
  rw [isConstant, read_append_left _ _ _ _ hi, isConstant]

theorem isConstant_append_right (i : Nat) :
    (a.append b scope).isConstant (i + a.size) = b.isConstant i := by
  rw [isConstant, read_append_right a b scope Cell.constant id i fun _ => rfl, Option.map_id]
  rfl

theorem partners_append_left {i : Nat} (hi : i < a.size) :
    (a.append b scope).partners i = a.partners i := by
  rw [partners, read_append_left _ _ _ _ hi, partners]

theorem partners_append_right (i : Nat) :
    (a.append b scope).partners (i + a.size) = (b.partners i).map (· + a.size) := by
  rw [partners, read_append_right a b scope Cell.partners (List.map (· + a.size)) i fun _ => rfl]
  exact Option.getD_map (List.map (· + a.size)) [] _

theorem scope_append_left {i : Nat} (hi : i < a.size) :
    (a.append b scope).scope i = a.scope i := by
  rw [Arena.scope, read_append_left _ _ _ _ hi, Arena.scope]

theorem scope_append_right {i : Nat} (hi : i < b.size) :
    (a.append b scope).scope (i + a.size) = b.scope i + scope := by
  rw [Arena.scope, read_append_right a b scope Cell.scope (· + scope) i fun _ => rfl, Arena.scope,
    List.getElem?_eq_getElem hi]
  rfl

end Append

variable {a b : Arena}

/-- Ranks grow on the ways of a disjoint union. -/
theorem Ranked.append (ha : a.Sound) (hb : b.Ranked) (scope : Nat) :
    (a.append b scope).Ranked where
  rank_lt := by
    refine a.append_cases (fun i hi hne => ?_) fun i hne => ?_
    · rw [parent_append_left a b scope hi] at hne ⊢
      rw [rank_append_left a b scope hi, rank_append_left a b scope (ha.parent_lt i hi)]
      exact ha.rank_lt i hne
    · rw [parent_append_right] at hne ⊢
      rw [rank_append_right, rank_append_right]
      exact hb.rank_lt i fun heq => hne (by rw [heq])
  rank_le := by
    refine a.append_cases (fun i hi => ?_) fun i => ?_
    · rw [rank_append_left a b scope hi, size_append]
      exact Nat.le_trans (ha.rank_le i) (Nat.le_add_right _ _)
    · rw [rank_append_right, size_append]
      exact Nat.le_trans (hb.rank_le i) (Nat.le_add_left _ _)

namespace Sound

variable (ha : a.Sound) (hb : b.Sound) (scope : Nat)

include ha hb

/-- The roots are those of the two arenas. -/
theorem root_append (i : Nat) : (a.append b scope).root i =
    if i < a.size then a.root i else b.root (i - a.size) + a.size := by
  let κ := fun i => if i < a.size then a.root i else b.root (i - a.size) + a.size
  have hκ : ∀ {i : Nat}, i < a.size → κ i = a.root i := fun hi => if_pos hi
  have hκ' : ∀ i, κ (i + a.size) = b.root i + a.size := fun i => by
    simp only [κ, if_neg (Nat.not_lt.2 (Nat.le_add_left a.size i)), Nat.add_sub_cancel]
  refine (Ranked.append ha hb.toRanked scope).root_eq κ ?_ ?_ i
  · refine a.append_cases (fun i hi => ?_) fun i => ?_
    · rw [parent_append_left a b scope hi, hκ (ha.parent_lt i hi), hκ hi, ha.root_parent]
    · rw [parent_append_right, hκ', hκ', hb.root_parent]
  · refine a.append_cases (fun i hi hroot => ?_) fun i hroot => ?_
    · rw [parent_append_left a b scope hi] at hroot
      rw [hκ hi, Ranked.root_of_parent hroot]
    · rw [parent_append_right] at hroot
      rw [hκ', Ranked.root_of_parent (Nat.add_right_cancel hroot)]

/-! Each part keeps its roots, members and values; those of the second part are moved. -/

theorem root_append_left {i : Nat} (hi : i < a.size) : (a.append b scope).root i = a.root i := by
  rw [root_append ha hb, if_pos hi]

theorem root_append_right (i : Nat) :
    (a.append b scope).root (i + a.size) = b.root i + a.size := by
  rw [root_append ha hb, if_neg (by omega), Nat.add_sub_cancel]

theorem members_append_left {i : Nat} (hi : i < a.size) :
    (a.append b scope).members i = a.members i := by
  rw [members, root_append_left ha hb scope hi, read_append_left _ _ _ _ (ha.root_lt hi), members]

theorem members_append_right (i : Nat) :
    (a.append b scope).members (i + a.size) = (b.members i).map (· + a.size) := by
  rw [members, root_append_right ha hb, read_append_right a b scope Cell.members
    (List.map (· + a.size)) (b.root i) fun _ => rfl]
  exact Option.getD_map (List.map (· + a.size)) [i] _

theorem value?_append_left {i : Nat} (hi : i < a.size) :
    (a.append b scope).value? i = a.value? i := by
  rw [value?, root_append_left ha hb scope hi, getElem?_append_left _ _ _ (ha.root_lt hi), value?]

theorem value?_append_right (i : Nat) : (a.append b scope).value? (i + a.size) = b.value? i := by
  rw [value?, root_append_right ha hb, getElem?_append_right, Option.bind_map, value?]
  rfl

/-- The list of members is that of the cells with the same root. -/
theorem mem_members_append {i j : Nat} (hi : i < (a.append b scope).size) :
    j ∈ (a.append b scope).members i ↔ j < (a.append b scope).size ∧
      (a.append b scope).root j = (a.append b scope).root i := by
  by_cases hia : i < a.size
  · rw [members_append_left ha hb scope hia, root_append_left ha hb scope hia,
      ha.mem_members i j hia, size_append]
    have hroot := ha.root_lt hia
    by_cases hj : j < a.size
    · rw [root_append_left ha hb scope hj]
      exact and_congr_left fun _ => ⟨fun _ => by omega, fun _ => hj⟩
    · obtain ⟨j, rfl⟩ := Nat.exists_eq_add_of_le' (Nat.not_lt.1 hj)
      rw [root_append_right ha hb]
      omega
  · obtain ⟨i, rfl⟩ := Nat.exists_eq_add_of_le' (Nat.not_lt.1 hia)
    have hi' : i < b.size := by rw [size_append] at hi; omega
    rw [members_append_right ha hb, root_append_right ha hb, size_append, List.mem_map]
    by_cases hj : j < a.size
    · have hroot := ha.root_lt hj
      rw [root_append_left ha hb scope hj]
      constructor
      · rintro ⟨k, -, hk⟩
        omega
      · omega
    · obtain ⟨j, rfl⟩ := Nat.exists_eq_add_of_le' (Nat.not_lt.1 hj)
      rw [root_append_right ha hb]
      simp only [Nat.add_right_cancel_iff, exists_eq_right, hb.mem_members i j hi']
      omega

/-- **The disjoint union of two sound arenas is sound.** -/
theorem append : (a.append b scope).Sound := by
  refine
    { toRanked := Ranked.append ha hb.toRanked scope
      parent_lt := a.append_cases (fun i hi _ => ?_) fun i hi => ?_
      mem_members := fun i j hi => mem_members_append ha hb scope hi
      nodup_members := a.append_cases (fun i hi => ?_) fun i => ?_
      two_pow_rank_le := a.append_cases (fun i hi _ => ?_) fun i hi => ?_
      members_constant := a.append_cases (fun i hi hc => ?_) fun i hc => ?_
      isSome_constant := a.append_cases (fun i hi hc => ?_) fun i hc => ?_
      partners_comm := a.append_cases (fun i hi j hj => ?_) fun i j hj => ?_
      root_ne_of_mem_partners := a.append_cases (fun i hi j hj => ?_) fun i j hj => ?_
      scope_parent := a.append_cases (fun i hi => ?_) fun i => ?_
      scope_of_mem_partners := a.append_cases (fun i hi j hj => ?_) fun i j hj => ?_ }
  · rw [parent_append_left a b scope hi, size_append]
    exact Nat.lt_add_right _ (ha.parent_lt i hi)
  · rw [size_append] at hi ⊢
    rw [parent_append_right]
    have := hb.parent_lt i (by omega)
    omega
  · rw [members_append_left ha hb scope hi]
    exact ha.nodup_members i
  · rw [members_append_right ha hb]
    exact (hb.nodup_members i).map fun _ _ => Nat.add_right_cancel
  · rw [rank_append_left a b scope hi, members_append_left ha hb scope hi]
    exact ha.two_pow_rank_le i hi
  · rw [rank_append_right, members_append_right ha hb, List.length_map]
    exact hb.two_pow_rank_le i (by rw [size_append] at hi; omega)
  · rw [isConstant_append_left a b scope hi] at hc
    rw [members_append_left ha hb scope hi, ha.members_constant i hc]
  · rw [isConstant_append_right] at hc
    rw [members_append_right ha hb, hb.members_constant i hc, List.map_singleton]
  · rw [isConstant_append_left a b scope hi] at hc
    rw [value?_append_left ha hb scope hi]
    exact ha.isSome_constant i hc
  · rw [isConstant_append_right] at hc
    rw [value?_append_right ha hb]
    exact hb.isSome_constant i hc
  · rw [partners_append_left a b scope hi] at hj
    rw [partners_append_left a b scope (ha.lt_of_mem_partners hj)]
    exact ha.partners_comm i j hj
  · rw [partners_append_right] at hj
    obtain ⟨j, hmem, rfl⟩ := List.mem_map.1 hj
    rw [partners_append_right]
    exact List.mem_map_of_mem (hb.partners_comm i j hmem)
  · rw [partners_append_left a b scope hi] at hj
    rw [root_append_left ha hb scope hi, root_append_left ha hb scope (ha.lt_of_mem_partners hj)]
    exact ha.root_ne_of_mem_partners i j hj
  · rw [partners_append_right] at hj
    obtain ⟨j, hmem, rfl⟩ := List.mem_map.1 hj
    rw [root_append_right ha hb, root_append_right ha hb]
    exact fun heq => hb.root_ne_of_mem_partners i j hmem (Nat.add_right_cancel heq)
  · rw [parent_append_left a b scope hi, scope_append_left a b scope hi,
      scope_append_left a b scope (ha.parent_lt i hi)]
    exact ha.scope_parent i
  · rw [parent_append_right]
    by_cases hi : i < b.size
    · rw [scope_append_right a b scope hi, scope_append_right a b scope (hb.parent_lt i hi),
        hb.scope_parent]
    · rw [parent_of_size_le (Nat.not_lt.1 hi)]
  · rw [partners_append_left a b scope hi] at hj
    rw [scope_append_left a b scope hi, scope_append_left a b scope (ha.lt_of_mem_partners hj)]
    exact ha.scope_of_mem_partners i j hj
  · rw [partners_append_right] at hj
    obtain ⟨j, hmem, rfl⟩ := List.mem_map.1 hj
    rw [scope_append_right a b scope (lt_size_of_mem_partners hmem),
      scope_append_right a b scope (hb.lt_of_mem_partners hmem), hb.scope_of_mem_partners i j hmem]

end Sound

/-! ### New cells

A new cell is an arena of one cell that is put behind the others. What is known of unions is then
known of new cells. -/

/-- An arena with a cell more. -/
structure Extended (a : Arena) (v : Option String) (scope : Nat) (b : Arena) : Prop where
  sound : b.Sound
  size : b.size = a.size + 1
  root : b.root = a.root
  members : b.members = a.members
  partners : b.partners = a.partners
  value? : b.value? = Function.update a.value? a.size v
  isConstant : b.isConstant = Function.update a.isConstant a.size v.isSome
  scope : b.scope = Function.update a.scope a.size scope

/-- An arena of one cell. -/
def single (v : Option String) : Arena := ⟨[⟨0, 0, 0, v, v.isSome, [], [0]⟩]⟩

/-- A new cell is the only one of another arena. -/
theorem newCell_eq_append (a : Arena) (v : Option String) (scope : Nat) :
    a.newCell v scope = (a.size, a.append (single v) scope) := by
  simp [newCell, append, single]

theorem getElem?_single (v : Option String) (i : Nat) :
    (single v).cells[i]? = if i = 0 then some ⟨0, 0, 0, v, v.isSome, [], [0]⟩ else none :=
  List.getElem?_singleton

theorem partners_single (v : Option String) (i : Nat) : (single v).partners i = [] := by
  rw [partners, getElem?_single]
  split <;> rfl

theorem allNew_single (v : Option String) : (single v).AllNew := by
  intro i c hc
  rw [getElem?_single] at hc
  split at hc
  · rename_i hi
    obtain rfl := Option.some.inj hc
    exact ⟨rfl, hi.symm, rfl, by rw [hi], rfl⟩
  · cases hc

theorem sound_single (v : Option String) : (single v).Sound := by
  refine (allNew_single v).sound (fun i j hj => ?_) fun i hi => ?_
  · rw [partners_single] at hj
    cases hj
  · rw [partners_single] at hi
    cases hi

section NewCell

variable (a : Arena) (v : Option String) (scope : Nat)

theorem getElem?_newCell (i : Nat) : (a.newCell v scope).2.cells[i]? =
    if i = a.size then some ⟨scope, a.size, 0, v, v.isSome, [], [a.size]⟩ else a.cells[i]? := by
  rw [newCell, List.getElem?_append, size]
  by_cases hi : i = a.cells.length
  · simp [hi]
  · rw [if_neg hi]
    split
    · rfl
    · rw [List.getElem?_singleton, if_neg (by omega), List.getElem?_eq_none (by omega)]

theorem size_newCell : (a.newCell v scope).2.size = a.size + 1 := by
  simp [newCell, size]

theorem partners_newCell : (a.newCell v scope).2.partners = a.partners := by
  funext i
  rw [partners, getElem?_newCell, partners]
  split
  · rename_i hi
    rw [hi, List.getElem?_eq_none (Nat.le_refl a.size)]
    rfl
  · rfl

theorem isConstant_newCell :
    (a.newCell v scope).2.isConstant = Function.update a.isConstant a.size v.isSome := by
  funext i
  rw [isConstant, getElem?_newCell, Function.update_apply, isConstant]
  split <;> rfl

theorem scope_newCell :
    (a.newCell v scope).2.scope = Function.update a.scope a.size scope := by
  funext i
  rw [Arena.scope, getElem?_newCell, Function.update_apply, Arena.scope]
  split <;> rfl

variable {a}

/-- A cell that was never made is alone. -/
theorem root_of_size_le {i : Nat} (hi : a.size ≤ i) : a.root i = i :=
  Ranked.root_of_parent (parent_of_size_le hi)

theorem members_of_size_le {i : Nat} (hi : a.size ≤ i) : a.members i = [i] := by
  rw [members, root_of_size_le hi, List.getElem?_eq_none hi]
  rfl

theorem value?_of_size_le {i : Nat} (hi : a.size ≤ i) : a.value? i = none := by
  rw [value?, root_of_size_le hi, List.getElem?_eq_none hi]
  rfl

/-- **A new cell** is a class of its own, and nothing else changes. -/
theorem Sound.newCell (h : a.Sound) : a.Extended v scope (a.newCell v scope).2 := by
  have hs := sound_single v
  have hnew := allNew_single v
  have heq : (a.newCell v scope).2 = a.append (single v) scope :=
    congrArg Prod.snd (a.newCell_eq_append v scope)
  refine
    { sound := by rw [heq]; exact h.append hs scope
      size := a.size_newCell v scope
      root := funext (a.append_cases (fun i hi => ?_) fun i => ?_)
      members := funext (a.append_cases (fun i hi => ?_) fun i => ?_)
      partners := a.partners_newCell v scope
      value? := funext (a.append_cases (fun i hi => ?_) fun i => ?_)
      isConstant := a.isConstant_newCell v scope
      scope := a.scope_newCell v scope }
  · rw [heq, h.root_append_left hs scope hi]
  · rw [heq, h.root_append_right hs, hnew.root, root_of_size_le (Nat.le_add_left _ _)]
  · rw [heq, h.members_append_left hs scope hi]
  · rw [heq, h.members_append_right hs, hnew.members, members_of_size_le (Nat.le_add_left _ _)]
    rfl
  · rw [heq, h.value?_append_left hs scope hi, Function.update_of_ne (Nat.ne_of_lt hi)]
  · have hnone : a.value? (i + a.size) = none := value?_of_size_le (Nat.le_add_left _ _)
    rw [heq, h.value?_append_right hs, Function.update_apply, value?, hnew.root, getElem?_single,
      hnone]
    by_cases hi : i = 0
    · rw [if_pos hi, if_pos (by omega)]
      rfl
    · rw [if_neg hi, if_neg (by omega)]
      rfl

end NewCell

end Arena

end Strips
