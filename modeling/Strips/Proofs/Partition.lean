import Strips.Proofs.Classes
import Mathlib.Data.List.Perm.Basic

/-!
# An arena is a partition of its cells

The specification of an arena needs no trees: a `Partition` is a list of blocks with a value each,
the constants, and the pairs that were marked distinct. It is changed by the same calls as an arena.

One call takes an arena and a partition that describes it to an arena and a partition that describes
it, with the same reply (`Partition.Shows.call`). So a whole run of calls gives the same replies,
and afterwards nothing that can be seen of the arena differs from the partition.

## Main definitions

* `Partition` – the specification.
* `Arena.Call`, `Arena.Reply` – what an arena can be asked, and what it answers.
* `Partition.Shows` – a partition describes a sound arena.
* `Arena.Called` – what a call may do to an arena.
* `Arena.Implements` – what can be seen of an arena is what the partition says.

## Main results

* `Partition.Shows.call` – one call.
* `Arena.implements_partition` – a run of calls, from the empty arena on.
-/

namespace Strips

namespace Arena

/-! ### Calls -/

/-- What an arena is asked. The cells of a call are those that it is about. -/
inductive Call where
  | newCell (value : Option String) (scope : Nat)
  | bind (i : Nat) (value : Option String)
  | link (i j : Nat)
  | clear (i : Nat)
  | clearAll (scope : Nat)
  | markDistinct (i j : Nat)
  | find (i : Nat)
  deriving DecidableEq, Repr

/-- The reply to a call. -/
inductive Reply where
  | cell (i : Nat)
  | answer (accepted : Bool)
  | done
  | refused (error : BindingError)
  deriving DecidableEq, Repr

namespace Call

/-- The cells that a call is about. -/
def cells : Call → List Nat
  | newCell _ _ | clearAll _ => []
  | bind i _ | clear i | find i => [i]
  | link i j | markDistinct i j => [i, j]

/-- The number of cells that a call makes. -/
def made : Call → Nat
  | newCell _ _ => 1
  | _ => 0

/-- With `n` cells made before, every call is about cells that there are. -/
def Valid : Nat → List Call → Prop
  | _, [] => True
  | n, c :: calls => (∀ i ∈ c.cells, i < n) ∧ Valid (n + c.made) calls

instance decidableValid : ∀ n calls, Decidable (Valid n calls)
  | _, [] => inferInstanceAs (Decidable True)
  | n, c :: calls =>
    have := decidableValid (n + c.made) calls
    inferInstanceAs (Decidable ((∀ i ∈ c.cells, i < n) ∧ Valid (n + c.made) calls))

/-- Make calls one after another. -/
def run {σ : Type} (step : σ → Call → Reply × σ) : σ → List Call → List Reply × σ
  | s, [] => ([], s)
  | s, c :: calls =>
    let (reply, s') := step s c
    let (replies, s'') := run step s' calls
    (reply :: replies, s'')

end Call

/-- A call on an arena. A refused call changes nothing. -/
def call (a : Arena) : Call → Reply × Arena
  | .newCell v scope => (.cell (a.newCell v scope).1, (a.newCell v scope).2)
  | .bind _ none => (.refused .noValue, a)
  | .bind i (some v) => (.answer (a.bind i v).1, (a.bind i v).2)
  | .link i j =>
    match a.link i j with
    | .ok (accepted, b) => (.answer accepted, b)
    | .error e => (.refused e, a)
  | .clear i => (.done, a.clear i)
  | .clearAll scope => (.done, a.clearAll scope)
  | .markDistinct i j =>
    match a.markDistinct i j with
    | .ok b => (.done, b)
    | .error e => (.refused e, a)
  | .find i => (.done, (a.find i).2)

/-- A class of cells, and its value. -/
structure Block where
  cells : List Nat
  value : Option String
  deriving DecidableEq, Repr

end Arena

/-! ### The specification -/

/-- A partition of cells into classes, with the scopes of the cells, the constants among them and
the pairs of cells that were marked distinct. -/
structure Partition where
  scopes : List Nat := []
  constants : List Nat := []
  blocks : List Arena.Block := []
  distinct : List (Nat × Nat) := []
  deriving DecidableEq, Repr

namespace Partition

/-- The number of cells. -/
def size (p : Partition) : Nat := p.scopes.length

/-- The scope of a cell. -/
def scope (p : Partition) (i : Nat) : Nat := p.scopes.getD i 0

/-- The block of a cell. -/
def blockOf (p : Partition) (i : Nat) : Arena.Block :=
  (p.blocks.find? fun B => B.cells.contains i).getD ⟨[i], none⟩

/-- The value of a cell is that of its block. -/
def value? (p : Partition) (i : Nat) : Option String := (p.blockOf i).value

/-- The cells in the block of a cell. -/
def members (p : Partition) (i : Nat) : List Nat := (p.blockOf i).cells

/-- Whether two cells were marked distinct. -/
def marked (p : Partition) (i j : Nat) : Bool :=
  p.distinct.contains (i, j) || p.distinct.contains (j, i)

/-- Whether a cell of one block was marked distinct from a cell of the other. -/
def areDistinct (p : Partition) (i j : Nat) : Bool :=
  (p.members i).any fun m => (p.members j).any fun k => p.marked m k

/-- Whether the block of a cell takes a value: an unbound one takes any that no cell holds that was
marked distinct from one of its cells. -/
def accepts (p : Partition) (i : Nat) (v : String) : Bool :=
  match p.value? i with
  | some w => w == v
  | none => !(p.members i).any fun m =>
    (List.range p.size).any fun k => p.marked m k && p.value? k == some v

/-- A new cell is a block of its own. -/
def newCell (p : Partition) (v : Option String) (scope : Nat) : Partition :=
  { p with
    scopes := p.scopes ++ [scope]
    constants := if v.isSome then p.size :: p.constants else p.constants
    blocks := ⟨[p.size], v⟩ :: p.blocks }

/-- Give a value to the block of a cell, or take it away. -/
def setValue (p : Partition) (i : Nat) (v : Option String) : Partition :=
  { p with blocks := p.blocks.map fun B => if i ∈ B.cells then { B with value := v } else B }

/-- Bind the block of a cell. -/
def bind (p : Partition) (i : Nat) (v : String) : Bool × Partition :=
  (p.accepts i v, if p.accepts i v then p.setValue i (some v) else p)

/-- Make two unbound blocks one. -/
def merge (p : Partition) (i j : Nat) : Partition :=
  { p with
    blocks := ⟨p.members i ++ p.members j, none⟩ ::
      p.blocks.filter fun B => i ∉ B.cells ∧ j ∉ B.cells }

/-- Link two cells: distinct blocks and blocks with two values are not linked, a value goes over to
an unbound block, and two unbound blocks become one. -/
def link (p : Partition) (i j : Nat) : Bool × Partition :=
  if j ∈ p.members i then (true, p)
  else if p.areDistinct i j then (false, p)
  else match p.value? i, p.value? j with
    | some v, some w => (v == w, p)
    | some v, none => p.bind j v
    | none, some w => p.bind i w
    | none, none => (true, p.merge i j)

/-- Take the value of a block away, unless the cell is a constant. -/
def clear (p : Partition) (i : Nat) : Partition :=
  if i ∈ p.constants then p else p.setValue i none

/-- Take the values of the blocks of a scope away, constants left alone. -/
def clearAll (p : Partition) (scope : Nat) : Partition :=
  { p with
    blocks := p.blocks.map fun B =>
      if B.cells.any fun i => p.scope i == scope && !p.constants.contains i then
        { B with value := none }
      else B }

/-- A call on a partition. -/
def call (p : Partition) : Arena.Call → Arena.Reply × Partition
  | .newCell v scope => (.cell p.size, p.newCell v scope)
  | .bind _ none => (.refused .noValue, p)
  | .bind i (some v) => (.answer (p.bind i v).1, (p.bind i v).2)
  | .link i j =>
    if p.scope i ≠ p.scope j then (.refused .differentScopes, p)
    else (.answer (p.link i j).1, (p.link i j).2)
  | .clear i => (.done, p.clear i)
  | .clearAll scope => (.done, p.clearAll scope)
  | .markDistinct i j =>
    if p.scope i ≠ p.scope j then (.refused .differentScopes, p)
    else if j ∈ p.members i then (.refused .distinctFromItself, p)
    else (.done, { p with distinct := (i, j) :: p.distinct })
  | .find _ => (.done, p)

/-! ### Describing an arena -/

/-- A block is a class of the arena, with its value. -/
structure IsClass (a : Arena) (B : Arena.Block) : Prop where
  nodup : B.cells.Nodup
  mem : ∀ i ∈ B.cells, i < a.size ∧ a.value? i = B.value ∧
    ∀ j, j ∈ B.cells ↔ j < a.size ∧ a.root j = a.root i

/-- A partition describes a sound arena. -/
structure Shows (p : Partition) (a : Arena) : Prop where
  sound : a.Sound
  size : p.size = a.size
  scope : ∀ i, p.scope i = a.scope i
  mem_constants : ∀ i, i ∈ p.constants ↔ a.isConstant i = true
  marked : ∀ i j, p.marked i j = true ↔ j ∈ a.partners i
  isClass : ∀ B ∈ p.blocks, IsClass a B
  cover : ∀ i, i < a.size → ∃ B ∈ p.blocks, i ∈ B.cells

namespace Shows

variable {p : Partition} {a : Arena} (h : p.Shows a)

include h

theorem blockOf {i : Nat} (hi : i < a.size) : p.blockOf i ∈ p.blocks ∧ i ∈ p.members i := by
  obtain ⟨B, hB, hiB⟩ := h.cover i hi
  obtain ⟨B', hB'⟩ : ∃ B', p.blocks.find? (fun B => B.cells.contains i) = some B' :=
    Option.isSome_iff_exists.1 (List.find?_isSome.2 ⟨B, hB, List.contains_iff_mem.2 hiB⟩)
  have hblock : p.blockOf i = B' := by rw [Partition.blockOf, hB', Option.getD_some]
  rw [members, hblock]
  have hcontains := List.find?_some hB'
  exact ⟨List.mem_of_find?_eq_some hB', List.contains_iff_mem.1 hcontains⟩

theorem isClass_blockOf {i : Nat} (hi : i < a.size) : IsClass a (p.blockOf i) :=
  h.isClass _ (h.blockOf hi).1

theorem value? {i : Nat} (hi : i < a.size) : p.value? i = a.value? i :=
  ((h.isClass_blockOf hi).mem i (h.blockOf hi).2).2.1.symm

theorem mem_members {i j : Nat} (hi : i < a.size) :
    j ∈ p.members i ↔ j < a.size ∧ a.root j = a.root i :=
  ((h.isClass_blockOf hi).mem i (h.blockOf hi).2).2.2 j

theorem perm_members {i : Nat} (hi : i < a.size) : (a.members i).Perm (p.members i) :=
  (List.perm_ext_iff_of_nodup (h.sound.nodup_members i) (h.isClass_blockOf hi).nodup).2 fun j => by
    rw [h.sound.mem_members i j hi, ← h.mem_members hi, members]

theorem areDistinct {i j : Nat} (hi : i < a.size) (hj : j < a.size) :
    p.areDistinct i j = a.areDistinct i j := by
  have hperm := fun k => (h.perm_members hi).mem_iff (a := k)
  have hperm' := fun k => (h.perm_members hj).mem_iff (a := k)
  rw [Bool.eq_iff_iff, Arena.areDistinct_iff, Partition.areDistinct]
  simp only [List.any_eq_true, h.marked, ← hperm, ← hperm']
  constructor
  · rintro ⟨m, hm, k, hk, hmark⟩
    -- marks are made within a scope
    refine ⟨?_, m, hm, k, hk, hmark⟩
    have hmi := ((h.sound.mem_members i m hi).1 hm).2
    have hkj := ((h.sound.mem_members j k hj).1 hk).2
    rw [← h.sound.scope_root i, ← h.sound.scope_root j, ← hmi, ← hkj, h.sound.scope_root,
      h.sound.scope_root, h.sound.scope_of_mem_partners m k hmark]
  · exact fun hall => hall.2

theorem accepts {i : Nat} (hi : i < a.size) (v : String) : p.accepts i v = a.accepts i v := by
  rw [Partition.accepts, Arena.accepts, h.value? hi]
  cases a.value? i with
  | some w => rfl
  | none =>
    refine congrArg Bool.not ?_
    rw [Bool.eq_iff_iff, Arena.isExcluded]
    simp only [List.any_eq_true, Bool.and_eq_true, beq_iff_eq, List.mem_range, h.marked, h.size,
      ← (h.perm_members hi).mem_iff]
    constructor
    · rintro ⟨m, hm, k, hk, hmark, hv⟩
      exact ⟨m, hm, k, hmark, by rwa [← h.value? hk]⟩
    · rintro ⟨m, hm, k, hmark, hv⟩
      have hk := h.sound.lt_of_mem_partners hmark
      exact ⟨m, hm, k, hk, hmark, by rwa [h.value? hk]⟩

/-- Changing the values of blocks as those of the classes. -/
theorem revalued {b : Arena} {ν : Nat → Option String} (hb : a.Revalued ν b)
    {g : Arena.Block → Arena.Block} (hcells : ∀ B, (g B).cells = B.cells)
    (hvalue : ∀ B ∈ p.blocks, ∀ i ∈ B.cells, ν i = (g B).value) :
    Shows { p with blocks := p.blocks.map g } b := by
  refine
    { sound := hb.sound
      size := h.size.trans hb.same.size.symm
      scope := fun i => (h.scope i).trans (congrFun hb.same.scope i).symm
      mem_constants := fun i => by rw [h.mem_constants, hb.same.isConstant]
      marked := fun i j => by rw [hb.partners]; exact h.marked i j
      isClass := fun C hC => ?_
      cover := fun i hi => ?_ }
  · obtain ⟨B, hB, rfl⟩ := List.mem_map.1 hC
    have hclass := h.isClass B hB
    refine ⟨hcells B ▸ hclass.nodup, fun i hi => ?_⟩
    rw [hcells] at hi ⊢
    rw [hb.same.size, hb.same.root, hb.value?]
    exact ⟨(hclass.mem i hi).1, hvalue B hB i hi, (hclass.mem i hi).2.2⟩
  · obtain ⟨B, hB, hi⟩ := h.cover i (hb.same.size ▸ hi)
    exact ⟨_, List.mem_map_of_mem hB, (hcells B).symm ▸ hi⟩

/-- An arena that looks the same is described by the same partition. -/
theorem unchanged {b : Arena} (hb : a.Revalued a.value? b) : p.Shows b := by
  have hshows := h.revalued hb (g := id) (fun _ => rfl) fun B hB i hi =>
    ((h.isClass B hB).mem i hi).2.1
  rwa [List.map_id] at hshows

theorem setValue {b : Arena} {i : Nat} (hi : i < a.size) {v : Option String}
    (hb : a.Revalued (a.valuesWith i v) b) : (p.setValue i v).Shows b := by
  refine h.revalued hb (fun B => by split <;> rfl) fun B hB j hj => ?_
  have hclass := (h.isClass B hB).mem j hj
  rw [Arena.valuesWith]
  by_cases hroot : a.root j = a.root i
  · rw [if_pos hroot, if_pos ((hclass.2.2 i).2 ⟨hi, hroot.symm⟩)]
  · rw [if_neg hroot, if_neg fun hiB => hroot ((hclass.2.2 i).1 hiB).2.symm]
    exact hclass.2.1

theorem bind {b : Arena} {i : Nat} (hi : i < a.size) {v : String}
    (hb : a.Revalued (if a.accepts i v then a.valuesWith i (some v) else a.value?) b) :
    (p.bind i v).1 = a.accepts i v ∧ (p.bind i v).2.Shows b := by
  rw [Partition.bind, h.accepts hi]
  refine ⟨rfl, ?_⟩
  cases hv : a.accepts i v with
  | true =>
    rw [hv, if_pos rfl] at hb
    exact h.setValue hi hb
  | false =>
    rw [hv, if_neg Bool.false_ne_true] at hb
    exact h.unchanged hb

theorem clear {i : Nat} (hi : i < a.size) : (p.clear i).Shows (a.clear i) := by
  have hclear := h.sound.clear hi
  rw [Partition.clear]
  by_cases hconstant : a.isConstant i = true
  · rw [if_pos hconstant] at hclear
    rw [if_pos ((h.mem_constants i).2 hconstant)]
    exact h.unchanged hclear
  · rw [if_neg hconstant] at hclear
    rw [if_neg (mt (h.mem_constants i).1 hconstant)]
    exact h.setValue hi hclear

theorem clearAll (scope : Nat) : (p.clearAll scope).Shows (a.clearAll scope) := by
  refine h.revalued (h.sound.clearAll scope) (fun B => by split <;> rfl) fun B hB i hi => ?_
  have hclass := (h.isClass B hB).mem i hi
  -- the cells of a block share their scope, and one of several is no constant
  have hany : (B.cells.any fun j => p.scope j == scope && !p.constants.contains j) = true ↔
      a.scope i = scope ∧ a.isConstant i = false := by
    simp only [List.any_eq_true, Bool.and_eq_true, beq_iff_eq, Bool.not_eq_true',
      List.contains_eq_mem, decide_eq_false_iff_not, h.mem_constants, h.scope, Bool.not_eq_true]
    constructor
    · rintro ⟨j, hj, hscope, hconstant⟩
      have hroot := ((hclass.2.2 j).1 hj).2
      refine ⟨by rw [← h.sound.scope_root, ← hroot, h.sound.scope_root, hscope], ?_⟩
      by_contra hi'
      rw [h.sound.eq_of_root_eq (Bool.not_eq_false _ ▸ hi') hroot] at hconstant
      exact hi' hconstant
    · exact fun hi' => ⟨i, hi, hi'⟩
  by_cases hcleared : a.scope i = scope ∧ a.isConstant i = false
  · rw [if_pos hcleared, if_pos (hany.2 hcleared)]
  · rw [if_neg hcleared, if_neg (mt hany.1 hcleared)]
    exact hclass.2.1

theorem newCell (v : Option String) (scope : Nat) :
    (p.newCell v scope).Shows (a.newCell v scope).2 := by
  have hb := h.sound.newCell v scope
  have hmem_lt : ∀ B ∈ p.blocks, ∀ i ∈ B.cells, i < a.size := fun B hB i hi =>
    ((h.isClass B hB).mem i hi).1
  refine
    { sound := hb.sound
      size := by rw [hb.size, ← h.size]; exact List.length_append
      scope := fun i => ?_
      mem_constants := fun i => ?_
      marked := fun i j => by rw [hb.partners]; exact h.marked i j
      isClass := fun B hB => ?_
      cover := fun i hi => ?_ }
  · have hscope := h.scope i
    have hsize : p.scopes.length = a.size := h.size
    rw [hb.scope, Function.update_apply, ← hscope, Partition.scope, Partition.newCell,
      List.getD_eq_getElem?_getD, List.getElem?_append, hsize]
    split
    · rw [if_neg (by omega), Partition.scope, List.getD_eq_getElem?_getD]
    · split
      · rename_i hi
        simp [hi]
      · rw [Partition.scope, List.getD_eq_getElem?_getD, List.getElem?_singleton,
          if_neg (by omega), List.getElem?_eq_none (by omega)]
  · rw [hb.isConstant, Function.update_apply, Partition.newCell, h.size]
    have hold := h.mem_constants i
    have hnew : a.isConstant i = true → i ≠ a.size := fun hi =>
      Nat.ne_of_lt (Arena.lt_size_of_isConstant hi)
    cases v with
    | none =>
      rw [if_neg (by simp), hold]
      split
      · exact iff_of_false (fun hi => hnew hi ‹_›) (by simp)
      · rfl
    | some w =>
      rw [if_pos (by simp), List.mem_cons, hold]
      split
      · simp [*]
      · simp [*]
  · rw [Partition.newCell, List.mem_cons] at hB
    rcases hB with rfl | hB
    · refine ⟨List.nodup_singleton _, fun i hi => ?_⟩
      obtain rfl := List.mem_singleton.1 hi
      have hlt : p.size < (a.newCell v scope).2.size := by rw [hb.size, h.size]; omega
      refine ⟨hlt, by rw [hb.value?, h.size, Function.update_self], fun j => ?_⟩
      rw [← hb.sound.mem_members _ j hlt, hb.members, h.size,
        Arena.members_of_size_le (Nat.le_refl _)]
    · have hclass := h.isClass B hB
      refine ⟨hclass.nodup, fun i hi => ?_⟩
      have hlt := hmem_lt B hB i hi
      have hlt' : i < (a.newCell v scope).2.size := by rw [hb.size]; omega
      refine ⟨hlt', ?_, fun j => ?_⟩
      · rw [hb.value?, Function.update_of_ne (Nat.ne_of_lt hlt)]
        exact (hclass.mem i hi).2.1
      · rw [← hb.sound.mem_members _ j hlt', hb.members, h.sound.mem_members i j hlt]
        exact (hclass.mem i hi).2.2 j
  · rw [hb.size, Nat.lt_succ_iff_lt_or_eq] at hi
    rcases hi with hi | rfl
    · obtain ⟨B, hB, hiB⟩ := h.cover i hi
      exact ⟨B, List.mem_cons_of_mem _ hB, hiB⟩
    · exact ⟨_, List.mem_cons_self, h.size ▸ List.mem_singleton_self _⟩

theorem merge {b : Arena} {i j r s : Nat} (hi : i < a.size) (hj : j < a.size)
    (hne : a.root i ≠ a.root j) (hvi : a.value? i = none) (hvj : a.value? j = none)
    (hrs : r = a.root i ∧ s = a.root j ∨ r = a.root j ∧ s = a.root i) (hb : a.Merged r s b) :
    (p.merge i j).Shows b := by
  -- which cells have the same root afterwards
  have hroot : ∀ m k, b.root m = b.root k ↔ a.root m = a.root k ∨
      (a.root m = a.root i ∨ a.root m = a.root j) ∧
        (a.root k = a.root i ∨ a.root k = a.root j) := by
    intro m k
    rw [hb.root, hb.root]
    rcases hrs with ⟨rfl, rfl⟩ | ⟨rfl, rfl⟩ <;> split <;> split <;> omega
  refine
    { sound := hb.sound
      size := h.size.trans hb.size.symm
      scope := fun k => (h.scope k).trans (congrFun hb.scope k).symm
      mem_constants := fun k => by rw [hb.isConstant]; exact h.mem_constants k
      marked := fun m k => by rw [hb.partners]; exact h.marked m k
      isClass := fun B hB => ?_
      cover := fun k hk => ?_ }
  · rw [Partition.merge, List.mem_cons] at hB
    rcases hB with rfl | hB
    · refine ⟨?_, fun m hm => ?_⟩
      · refine List.nodup_append'.2 ⟨(h.isClass_blockOf hi).nodup, (h.isClass_blockOf hj).nodup,
          fun k hki hkj => ?_⟩
        exact hne (((h.mem_members hi).1 hki).2.symm.trans ((h.mem_members hj).1 hkj).2)
      · have hmem : ∀ k, k ∈ p.members i ++ p.members j ↔
            k < a.size ∧ (a.root k = a.root i ∨ a.root k = a.root j) := by
          intro k
          rw [List.mem_append, h.mem_members hi, h.mem_members hj, ← and_or_left]
        have hm' := (hmem m).1 hm
        refine ⟨by rw [hb.size]; exact hm'.1, ?_, fun k => ?_⟩
        · rw [hb.value?]
          rcases hm'.2 with hr | hr
          · rw [Arena.value?_eq_of_root hr, hvi]
          · rw [Arena.value?_eq_of_root hr, hvj]
        · rw [hmem k, hb.size, hroot]
          have := hm'.2
          refine and_congr_right fun _ => ⟨fun hk => .inr ⟨hk, this⟩, ?_⟩
          rintro (hk | hk)
          · exact hk ▸ this
          · exact hk.1
    · obtain ⟨hB, hout⟩ := List.mem_filter.1 hB
      have hclass := h.isClass B hB
      rw [decide_eq_true_iff] at hout
      refine ⟨hclass.nodup, fun m hm => ?_⟩
      have hm' := hclass.mem m hm
      have hmi : a.root m ≠ a.root i := fun e => hout.1 ((hm'.2.2 i).2 ⟨hi, e.symm⟩)
      have hmj : a.root m ≠ a.root j := fun e => hout.2 ((hm'.2.2 j).2 ⟨hj, e.symm⟩)
      refine ⟨by rw [hb.size]; exact hm'.1, by rw [hb.value?]; exact hm'.2.1, fun k => ?_⟩
      rw [hb.size, hroot, hm'.2.2 k]
      refine and_congr_right fun _ => ⟨.inl, ?_⟩
      rintro (hk | ⟨-, hk | hk⟩)
      · exact hk
      · exact absurd hk hmi
      · exact absurd hk hmj
  · rw [hb.size] at hk
    obtain ⟨B, hB, hkB⟩ := h.cover k hk
    have hclass := (h.isClass B hB).mem k hkB
    rw [Partition.merge]
    by_cases hout : i ∉ B.cells ∧ j ∉ B.cells
    · exact ⟨B, List.mem_cons_of_mem _ (List.mem_filter.2 ⟨hB, decide_eq_true hout⟩), hkB⟩
    · refine ⟨_, List.mem_cons_self, List.mem_append.2 ?_⟩
      rw [h.mem_members hi, h.mem_members hj]
      rw [not_and_or, not_not, not_not, hclass.2.2, hclass.2.2] at hout
      exact hout.imp (fun e => ⟨hk, e.2.symm⟩) fun e => ⟨hk, e.2.symm⟩

theorem link {i j : Nat} (hi : i < a.size) (hj : j < a.size) (hscope : a.scope i = a.scope j) :
    (p.link i j).1 = (a.linkWithin i j).1 ∧ (p.link i j).2.Shows (a.linkWithin i j).2 := by
  have hlink := h.sound.linkWithin hi hj hscope
  generalize a.linkWithin i j = outcome at hlink
  have hmem : j ∈ p.members i ↔ a.root i = a.root j := by
    rw [h.mem_members hi, eq_comm]
    exact and_iff_right hj
  rw [Partition.link, h.areDistinct hi hj, h.value? hi, h.value? hj]
  cases hlink with
  | already hroot hb =>
    rw [if_pos (hmem.2 hroot)]
    exact ⟨rfl, h.unchanged hb⟩
  | refused hroot hmarks hb =>
    rw [if_neg (mt hmem.1 hroot), if_pos hmarks]
    exact ⟨rfl, h.unchanged hb⟩
  | compared hroot hmarks hvi hvj hb =>
    rw [if_neg (mt hmem.1 hroot), hmarks, hvi, hvj]
    exact ⟨rfl, h.unchanged hb⟩
  | boundRight hroot hmarks hvi hvj hb =>
    rw [if_neg (mt hmem.1 hroot), hmarks, hvi, hvj]
    exact h.bind hj hb
  | boundLeft hroot hmarks hvi hvj hb =>
    rw [if_neg (mt hmem.1 hroot), hmarks, hvi, hvj]
    exact h.bind hi hb
  | merged hroot hmarks hvi hvj hrs hb =>
    rw [if_neg (mt hmem.1 hroot), hmarks, hvi, hvj]
    exact ⟨rfl, h.merge hi hj hroot hvi hvj hrs hb⟩

theorem mark {b : Arena} {i j : Nat} (hb : b.Sound) (hsame : a.SameClasses b)
    (hvalue : b.value? = a.value?) (hmarks : ∀ k m, m ∈ b.partners k ↔
      m ∈ a.partners k ∨ (k = i ∧ m = j ∨ k = j ∧ m = i)) :
    Shows { p with distinct := (i, j) :: p.distinct } b := by
  refine
    { sound := hb
      size := h.size.trans hsame.size.symm
      scope := fun k => (h.scope k).trans (congrFun hsame.scope k).symm
      mem_constants := fun k => by rw [hsame.isConstant]; exact h.mem_constants k
      marked := fun k m => ?_
      isClass := fun B hB => ?_
      cover := by rw [hsame.size]; exact h.cover }
  · rw [hmarks, ← h.marked, Partition.marked, Partition.marked]
    simp only [List.contains_cons, Bool.or_eq_true, beq_iff_eq, Prod.mk.injEq]
    tauto
  · have hclass := h.isClass B hB
    refine ⟨hclass.nodup, fun k hk => ?_⟩
    rw [hsame.size, hsame.root, hvalue]
    exact hclass.mem k hk

/-- **One call.** The replies are the same, and the partition describes the arena afterwards. -/
theorem call (c : Arena.Call) (hc : ∀ i ∈ c.cells, i < a.size) :
    (p.call c).1 = (a.call c).1 ∧ (p.call c).2.Shows (a.call c).2 := by
  have hscope := h.scope
  cases c with
  | newCell v scope => exact ⟨congrArg Arena.Reply.cell h.size, h.newCell v scope⟩
  | bind i v =>
    have hi : i < a.size := hc i List.mem_cons_self
    cases v with
    | none => exact ⟨rfl, h⟩
    | some v =>
      have hbound := h.sound.bind hi v
      have hshows := h.bind hi hbound.2
      exact ⟨congrArg Arena.Reply.answer (hshows.1.trans hbound.1.symm), hshows.2⟩
  | link i j =>
    have hi : i < a.size := hc i (by simp [Arena.Call.cells])
    have hj : j < a.size := hc j (by simp [Arena.Call.cells])
    rw [Partition.call, Arena.call, Arena.link, hscope, hscope]
    by_cases hij : a.scope i = a.scope j
    · have hshows := h.link hi hj hij
      rw [if_neg (not_not.2 hij), if_pos hij]
      exact ⟨congrArg Arena.Reply.answer hshows.1, hshows.2⟩
    · rw [if_pos hij, if_neg hij]
      exact ⟨rfl, h⟩
  | clear i => exact ⟨rfl, h.clear (hc i List.mem_cons_self)⟩
  | clearAll scope => exact ⟨rfl, h.clearAll scope⟩
  | markDistinct i j =>
    have hi : i < a.size := hc i (by simp [Arena.Call.cells])
    have hj : j < a.size := hc j (by simp [Arena.Call.cells])
    have hmem : j ∈ p.members i ↔ a.root i = a.root j := by
      rw [h.mem_members hi, eq_comm]
      exact and_iff_right hj
    rw [Partition.call, Arena.call, hscope, hscope]
    by_cases hij : a.scope i = a.scope j
    · rw [if_neg (not_not.2 hij)]
      by_cases hroot : a.root i = a.root j
      · rw [if_pos (hmem.2 hroot), Arena.markDistinct, if_neg (not_not.2 hij), if_pos hroot]
        exact ⟨rfl, h⟩
      · obtain ⟨b, hb, hsound, hsame, hvalue, hmarks⟩ := h.sound.markDistinct hi hj hij hroot
        rw [if_neg (mt hmem.1 hroot), hb]
        exact ⟨rfl, h.mark hsound hsame hvalue hmarks⟩
    · rw [if_pos hij, Arena.markDistinct, if_pos hij]
      exact ⟨rfl, h⟩
  | find i => exact ⟨rfl, h.unchanged (h.sound.find i)⟩

end Shows

theorem size_call (p : Partition) (c : Arena.Call) : (p.call c).2.size = p.size + c.made := by
  cases c with
  | newCell v scope => exact List.length_append
  | bind i v =>
    cases v with
    | none => rfl
    | some v => simp only [call, bind]; split <;> rfl
  | link i j =>
    simp only [call, link, bind]
    repeat' split
    all_goals rfl
  | clear i => simp only [call, clear]; split <;> rfl
  | clearAll scope => rfl
  | markDistinct i j =>
    simp only [call]
    repeat' split
    all_goals rfl
  | find i => rfl

theorem Shows.size_call {p : Partition} {a : Arena} (h : p.Shows a) (c : Arena.Call)
    (hc : ∀ i ∈ c.cells, i < a.size) : (a.call c).2.size = a.size + c.made := by
  rw [← (h.call c hc).2.size, Partition.size_call, h.size]

/-- **A run of calls.** -/
theorem Shows.run : ∀ {calls : List Arena.Call} {p : Partition} {a : Arena}, p.Shows a →
    Arena.Call.Valid a.size calls →
    (Arena.Call.run Partition.call p calls).1 = (Arena.Call.run Arena.call a calls).1 ∧
      (Arena.Call.run Partition.call p calls).2.Shows (Arena.Call.run Arena.call a calls).2
  | [], _, _, h, _ => ⟨rfl, h⟩
  | c :: calls, p, a, h, hvalid => by
    obtain ⟨hreply, hshows⟩ := h.call c hvalid.1
    obtain ⟨hreplies, hlast⟩ := hshows.run (h.size_call c hvalid.1 ▸ hvalid.2)
    exact ⟨congrArg₂ List.cons hreply hreplies, hlast⟩

/-- Nothing describes the empty arena. -/
theorem shows_empty : Shows {} Arena.empty where
  sound := Arena.sound_empty
  size := rfl
  scope _ := rfl
  mem_constants i := by simp [Arena.isConstant, Arena.empty]
  marked i j := by simp [marked, Arena.partners, Arena.empty]
  isClass B hB := absurd hB List.not_mem_nil
  cover i hi := absurd hi (Nat.not_lt_zero i)

end Partition

namespace Arena

/-! ### What a call does -/

/-- What a call may do to an arena, with its reply. -/
inductive Called (a : Arena) : Call → Reply → Arena → Prop
  /-- Nothing changes that can be seen, whether the call is refused or not. -/
  | unseen {c : Call} {reply : Reply} {b : Arena} : a.Revalued a.value? b → Called a c reply b
  | made {v : Option String} {scope : Nat} {b : Arena} : a.Extended v scope b →
      Called a (.newCell v scope) (.cell a.size) b
  /-- A class gets a value that it accepts. -/
  | bound {c : Call} {k : Nat} {v : String} {b : Arena} : k < a.size → a.accepts k v = true →
      a.Revalued (a.valuesWith k (some v)) b → Called a c (.answer true) b
  /-- Classes lose their values, but for the constants. -/
  | freed {c : Call} {ν : Nat → Option String} {b : Arena} :
      (∀ i, ν i = none ∨ ν i = a.value? i) → (∀ i, a.isConstant i = true → ν i = a.value? i) →
      a.Revalued ν b → Called a c .done b
  | merged {i j r s : Nat} {b : Arena} : a.Merged r s b → Called a (.link i j) (.answer true) b
  | marked {i j : Nat} {b : Arena} : a.SameClasses b → b.value? = a.value? →
      (∀ k m, m ∈ b.partners k ↔ m ∈ a.partners k ∨ (k = i ∧ m = j ∨ k = j ∧ m = i)) →
      Called a (.markDistinct i j) .done b

/-- Binding gives a class a value that it accepts, or is not noticed. -/
theorem Called.of_accepts {a b : Arena} {c : Call} {k : Nat} {v : String} (hk : k < a.size)
    (hb : a.Revalued (if a.accepts k v then a.valuesWith k (some v) else a.value?) b) :
    a.Called c (.answer (a.accepts k v)) b := by
  cases haccepts : a.accepts k v with
  | true =>
    rw [haccepts, if_pos rfl] at hb
    exact .bound hk haccepts hb
  | false =>
    rw [haccepts, if_neg Bool.false_ne_true] at hb
    exact .unseen hb

/-- **What a call does** to a sound arena. -/
theorem Sound.called {a : Arena} (h : a.Sound) {c : Call} (hc : ∀ i ∈ c.cells, i < a.size) :
    a.Called c (a.call c).1 (a.call c).2 := by
  have hself : a.Revalued a.value? a := .refl h
  cases c with
  | newCell v scope => exact .made (h.newCell v scope)
  | bind k v =>
    cases v with
    | none => exact .unseen hself
    | some v =>
      have hk := hc k List.mem_cons_self
      have hbound := h.bind hk v
      rw [call, hbound.1]
      exact .of_accepts hk hbound.2
  | link i j =>
    have hi : i < a.size := hc i (by simp [Call.cells])
    have hj : j < a.size := hc j (by simp [Call.cells])
    rw [call, link]
    by_cases hscope : a.scope i = a.scope j
    · rw [if_pos hscope]
      have hlink := h.linkWithin hi hj hscope
      generalize a.linkWithin i j = outcome at hlink
      cases hlink with
      | already _ hb | refused _ _ hb | compared _ _ _ _ hb => exact .unseen hb
      | boundRight _ _ _ _ hb => exact .of_accepts hj hb
      | boundLeft _ _ _ _ hb => exact .of_accepts hi hb
      | merged _ _ _ _ _ hb => exact .merged hb
    · rw [if_neg hscope]
      exact .unseen hself
  | clear k =>
    refine .freed (fun i => ?_) (fun i hi => ?_) (h.clear (hc k List.mem_cons_self))
    · split
      · exact .inr rfl
      · rw [valuesWith]
        split
        · exact .inl rfl
        · exact .inr rfl
    · split
      · rfl
      · rename_i hk
        rw [valuesWith, if_neg]
        exact fun hroot => hk (h.eq_of_root_eq hi hroot.symm ▸ hi)
  | clearAll scope =>
    refine .freed (fun i => ?_) (fun i hi => ?_) (h.clearAll scope)
    · split
      · exact .inl rfl
      · exact .inr rfl
    · simp only [hi, Bool.true_eq_false, and_false, if_false]
  | markDistinct i j =>
    have hi : i < a.size := hc i (by simp [Call.cells])
    have hj : j < a.size := hc j (by simp [Call.cells])
    by_cases hscope : a.scope i = a.scope j
    · by_cases hroot : a.root i = a.root j
      · rw [call, Arena.markDistinct, if_neg (not_not.2 hscope), if_pos hroot]
        exact .unseen hself
      · obtain ⟨b, hb, -, hsame, hvalue, hmarks⟩ := h.markDistinct hi hj hscope hroot
        rw [call, hb]
        exact .marked hsame hvalue hmarks
    · rw [call, Arena.markDistinct, if_pos hscope]
      exact .unseen hself
  | find k => exact .unseen (h.find k)

/-! ### Constants -/

/-- A constant with its value. -/
structure Fixes (a : Arena) (i : Nat) (v : String) : Prop where
  isConstant : a.isConstant i = true
  value? : a.value? i = some v

/-- **A constant** keeps its value whatever is called. -/
theorem Called.fixes {a b : Arena} {c : Call} {reply : Reply} (h : a.Called c reply b) {i : Nat}
    {v : String} (hi : a.Fixes i v) : b.Fixes i v := by
  obtain ⟨hconstant, hvalue⟩ := hi
  cases h with
  | unseen hb => exact ⟨by rw [hb.same.isConstant, hconstant], by rw [hb.value?, hvalue]⟩
  | made hb =>
    have hne : i ≠ a.size := Nat.ne_of_lt (lt_size_of_isConstant hconstant)
    exact ⟨by rw [hb.isConstant, Function.update_of_ne hne, hconstant],
      by rw [hb.value?, Function.update_of_ne hne, hvalue]⟩
  | bound hk haccepts hb =>
    refine ⟨by rw [hb.same.isConstant, hconstant], ?_⟩
    rw [hb.value?, valuesWith]
    split
    · -- a class that has a value accepts no other one
      rename_i hroot
      rw [accepts, ← value?_eq_of_root hroot, hvalue] at haccepts
      rw [beq_iff_eq.1 haccepts]
    · exact hvalue
  | freed _ hkept hb =>
    exact ⟨by rw [hb.same.isConstant, hconstant], by rw [hb.value?, hkept i hconstant, hvalue]⟩
  | merged hb => exact ⟨by rw [hb.isConstant, hconstant], by rw [hb.value?, hvalue]⟩
  | marked hsame hvalues => exact ⟨by rw [hsame.isConstant, hconstant], by rw [hvalues, hvalue]⟩

/-- A constant keeps its value through a run of calls. -/
theorem fixes_run {i : Nat} {v : String} : ∀ {calls : List Call} {p : Partition} {a : Arena},
    p.Shows a → Call.Valid a.size calls → a.Fixes i v → (Call.run call a calls).2.Fixes i v
  | [], _, _, _, _, hi => hi
  | c :: _, _, _, h, hvalid, hi => by
    have hrest := (h.size_call c hvalid.1).symm ▸ hvalid.2
    have hlast := fixes_run (h.call c hvalid.1).2 hrest ((h.sound.called hvalid.1).fixes hi)
    exact hlast

/-- What was made with a value in a run of calls keeps the value to its end. -/
theorem fixes_of_newCell {k i scope : Nat} {v : String} :
    ∀ {calls : List Call} {p : Partition} {a : Arena}, p.Shows a → Call.Valid a.size calls →
      calls[k]? = some (.newCell (some v) scope) →
      (Call.run call a calls).1[k]? = some (.cell i) → (Call.run call a calls).2.Fixes i v
  | [], _, _, _, _, hcall, _ => by simp at hcall
  | c :: calls, p, a, h, hvalid, hcall, hreply => by
    have hshows := (h.call c hvalid.1).2
    have hrest := (h.size_call c hvalid.1).symm ▸ hvalid.2
    cases k with
    | zero =>
      obtain rfl := Option.some.inj hcall
      obtain rfl : a.size = i := by simpa [Call.run, call, newCell] using hreply
      have hb := h.sound.newCell (some v) scope
      have hmade : (a.newCell (some v) scope).2.Fixes a.size v :=
        ⟨by rw [hb.isConstant, Function.update_self]; rfl,
          by rw [hb.value?, Function.update_self]⟩
      have hlast := fixes_run hshows hrest hmade
      exact hlast
    | succ k =>
      have hlast := fixes_of_newCell hshows hrest hcall hreply
      exact hlast

/-! ### What can be seen -/

/-- What can be seen of an arena is what the partition says. -/
structure Implements (a : Arena) (p : Partition) : Prop where
  size : a.size = p.size
  value? : ∀ i < a.size, a.value? i = p.value? i
  members : ∀ i < a.size, (a.members i).Perm (p.members i)
  areDistinct : ∀ i < a.size, ∀ j < a.size, a.areDistinct i j = p.areDistinct i j
  isConstant : ∀ i, a.isConstant i = true ↔ i ∈ p.constants
  find : ∀ i < a.size, ∀ j < a.size, (a.find j).1 = (a.find i).1 ↔ j ∈ p.members i

/-- The lists of members are a partition of the cells. -/
structure Parted (a : Arena) : Prop where
  nodup : ∀ i < a.size, (a.members i).Nodup
  self : ∀ i < a.size, i ∈ a.members i
  lt : ∀ i < a.size, ∀ j ∈ a.members i, j < a.size
  same_or_disjoint : ∀ i < a.size, ∀ j < a.size,
    a.members i = a.members j ∨ (a.members i).Disjoint (a.members j)

/-- An operation that answers no leaves the classes and the values as they are. -/
def RefusalsChangeNothing (a : Arena) : Prop :=
  ∀ c : Call, (∀ i ∈ c.cells, i < a.size) → (a.call c).1 = .answer false →
    (a.call c).2.members = a.members ∧ (a.call c).2.root = a.root ∧ (a.call c).2.value? = a.value?

theorem Sound.parted {a : Arena} (h : a.Sound) : a.Parted where
  nodup i _ := h.nodup_members i
  self i hi := h.mem_members_self hi
  lt i hi j hj := ((h.mem_members i j hi).1 hj).1
  same_or_disjoint i hi j hj := by
    by_cases hroot : a.root i = a.root j
    · exact .inl (h.members_eq_of_root hi hroot)
    · refine .inr fun k hki hkj => hroot ?_
      rw [← ((h.mem_members i k hi).1 hki).2, ((h.mem_members j k hj).1 hkj).2]

theorem Sound.refusalsChangeNothing {a : Arena} (h : a.Sound) : a.RefusalsChangeNothing := by
  intro c hc hno
  have hcalled := h.called hc
  rw [hno] at hcalled
  generalize (a.call c).2 = b at hcalled
  cases hcalled with
  | unseen hb => exact ⟨hb.same.members, hb.same.root, hb.value?⟩

theorem Implements.of_shows {p : Partition} {a : Arena} (h : p.Shows a) :
    a.Implements p where
  size := h.size.symm
  value? i hi := (h.value? hi).symm
  members i hi := h.perm_members hi
  areDistinct i hi j hj := (h.areDistinct hi hj).symm
  isConstant i := (h.mem_constants i).symm
  find i hi j hj := by
    rw [h.mem_members hi]
    exact (and_iff_right hj).symm

/-- **An arena is a partition of its cells.** However an empty arena is called, it replies what a
partition replies that knows no trees, and looks like it afterwards: the lists of members are a
partition with equal roots for the cells of one class, a binding or a link that is not accepted
changes no class and no value, and every constant keeps its value and is alone in its class. -/
theorem implements_partition {calls : List Call} (hcalls : Call.Valid 0 calls) :
    (Call.run call empty calls).1 = (Call.run Partition.call {} calls).1 ∧
      (Call.run call empty calls).2.Implements (Call.run Partition.call {} calls).2 ∧
      (Call.run call empty calls).2.Parted ∧
      (Call.run call empty calls).2.RefusalsChangeNothing ∧
      ∀ (k i : Nat) (v : String) (scope : Nat), calls[k]? = some (.newCell (some v) scope) →
        (Call.run call empty calls).1[k]? = some (.cell i) →
        (Call.run call empty calls).2.value? i = some v ∧
          (Call.run call empty calls).2.members i = [i] := by
  obtain ⟨hreplies, hshows⟩ := Partition.shows_empty.run hcalls
  refine ⟨hreplies.symm, Implements.of_shows hshows, hshows.sound.parted,
    hshows.sound.refusalsChangeNothing, fun k i v scope hcall hreply => ?_⟩
  have hfixes := fixes_of_newCell Partition.shows_empty hcalls hcall hreply
  exact ⟨hfixes.value?, hshows.sound.members_constant i hfixes.isConstant⟩

/-- Two linked cells, of which one is distinct from a constant. -/
theorem implements_partition_linked :
    Call.Valid 0 [.newCell none 0, .newCell none 0, .newCell (some "a") 0, .link 0 1,
      .markDistinct 1 2, .bind 0 (some "a"), .bind 0 (some "b"), .link 0 2] ∧
    (Call.run Partition.call {} [.newCell none 0, .newCell none 0, .newCell (some "a") 0,
      .link 0 1, .markDistinct 1 2, .bind 0 (some "a"), .bind 0 (some "b"), .link 0 2]).1 =
      [.cell 0, .cell 1, .cell 2, .answer true, .done, .answer false, .answer true,
        .answer false] ∧
    (Call.run call empty [.newCell none 0, .newCell none 0, .newCell (some "a") 0, .link 0 1,
      .markDistinct 1 2, .bind 0 (some "a"), .bind 0 (some "b"), .link 0 2]).1 =
      [.cell 0, .cell 1, .cell 2, .answer true, .done, .answer false, .answer true,
        .answer false] := by
  have hreplies : (Call.run Partition.call {} [.newCell none 0, .newCell none 0,
      .newCell (some "a") 0, .link 0 1, .markDistinct 1 2, .bind 0 (some "a"),
      .bind 0 (some "b"), .link 0 2]).1 =
      [.cell 0, .cell 1, .cell 2, .answer true, .done, .answer false, .answer true,
        .answer false] := by decide +kernel
  exact ⟨by decide, hreplies, (implements_partition (by decide)).1.trans hreplies⟩

end Arena

end Strips
