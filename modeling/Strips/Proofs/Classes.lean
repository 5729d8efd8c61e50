import Strips.Proofs.Unions
import Mathlib.Data.List.Perm.Subperm

/-!
# What operations do to classes

Each operation on a sound arena is described by what can be seen afterwards: the roots, the members,
the values and the marks. The arena stays sound.

## Main results

* `Arena.Sound.bind`, `Arena.Sound.clear`, `Arena.Sound.clearAll` – values change, class by class.
* `Arena.Sound.linkWithin`, `Arena.Sound.merge` – how two cells are linked, and what a merged class
  is.
* `Arena.Sound.markDistinct` – a mark more.
-/

namespace Strips

namespace Arena

/-! ### Values

A value is kept by the root of a class. To bind or to clear a cell shortens the way to its root and
changes what the root holds, so of what can be seen only the values of one class are others, which
is what `Arena.Revalued` says. -/

/-- Whether the class of a cell takes a value. -/
def accepts (a : Arena) (i : Nat) (v : String) : Bool :=
  match a.value? i with
  | some w => w == v
  | none => !a.isExcluded i v

/-- The values after the class of a cell has got a value, or has lost it. -/
def valuesWith (a : Arena) (i : Nat) (v : Option String) (j : Nat) : Option String :=
  if a.root j = a.root i then v else a.value? j

/-- To give a class the value that it has changes nothing. -/
theorem valuesWith_value? (a : Arena) (i : Nat) : a.valuesWith i (a.value? i) = a.value? := by
  funext j
  rw [valuesWith]
  split
  · rename_i hj
    exact (value?_eq_of_root hj).symm
  · rfl

namespace Revalued

variable {a b c : Arena} {ν μ : Nat → Option String}

theorem refl (h : a.Sound) : a.Revalued a.value? a := ⟨h, .refl a, rfl, rfl⟩

theorem trans (hb : a.Revalued ν b) (hc : b.Revalued μ c) : a.Revalued μ c :=
  ⟨hc.sound, hb.same.trans hc.same, hc.partners.trans hb.partners, hc.value?⟩

/-- Arenas with the same classes and marks exclude the same values. -/
theorem isExcluded (hb : a.Revalued a.value? b) : b.isExcluded = a.isExcluded := by
  funext i v
  rw [Arena.isExcluded, Arena.isExcluded, hb.same.members, hb.partners, hb.value?]

/-- They accept the same values, … -/
theorem accepts (hb : a.Revalued a.value? b) : b.accepts = a.accepts := by
  funext i v
  rw [Arena.accepts, Arena.accepts, hb.isExcluded, hb.value?]

/-- … and the same cells are distinct in them. -/
theorem areDistinct (hb : a.Revalued ν b) : b.areDistinct = a.areDistinct := by
  funext i j
  rw [Arena.areDistinct, Arena.areDistinct, hb.same.members, hb.partners, hb.same.scope]

theorem valuesWith (hb : a.Revalued a.value? b) : b.valuesWith = a.valuesWith := by
  funext i v j
  rw [Arena.valuesWith, Arena.valuesWith, hb.same.root, hb.value?]

end Revalued

namespace Sound

variable {a : Arena} (h : a.Sound)

include h

theorem members_root {i : Nat} (hi : i < a.size) : a.members (a.root i) = a.members i :=
  h.members_eq_of_root (h.root_lt hi) (h.root_root i)

/-- Giving a value to a class at its root, or taking it away. -/
theorem revalue_root {i : Nat} (hi : i < a.size) {v : Option String}
    (hv : v = none → a.isConstant i = false) :
    a.Revalued (a.valuesWith i v) (a.revalue fun j c => if j = a.root i then v else c.value) := by
  have hvalue : (a.revalue fun j c => if j = a.root i then v else c.value).value? =
      a.valuesWith i v := by
    funext j
    rw [value?_revalue, valuesWith]
    split
    · rename_i hj
      rw [hj, List.getElem?_eq_getElem (h.root_lt hi)]
      rfl
    · rw [value?]
  refine ⟨h.revalue fun j hj => ?_, sameClasses_revalue _ _, partners_revalue _ _, hvalue⟩
  rw [hvalue, valuesWith]
  split
  · rename_i hroot
    obtain rfl := h.eq_of_root_eq hj hroot.symm
    cases v with
    | some w => rfl
    | none => rw [hv rfl] at hj; cases hj
  · exact h.isSome_constant j hj

omit h in
theorem modify_value (r : Nat) (v : Option String) :
    (a.modify r fun c => { c with value := v }) =
      a.revalue fun j c => if j = r then v else c.value := by
  rw [modify_eq_mapCells, Arena.revalue]
  congr
  funext j c
  split <;> rfl

/-- Looking for the root of a class and giving it a value. -/
theorem modify_find {i : Nat} (hi : i < a.size) {v : Option String}
    (hv : v = none → a.isConstant i = false) :
    a.Revalued (a.valuesWith i v)
      ((a.find i).2.modify (a.root i) fun c => { c with value := v }) := by
  have hfind := h.find i
  have hnew := hfind.sound.revalue_root (hfind.same.size ▸ hi) (v := v) (hfind.same.isConstant ▸ hv)
  rw [modify_value, ← hfind.valuesWith]
  rw [hfind.same.root] at hnew
  exact hfind.trans hnew

/-- **Binding.** The class of the cell has the value afterwards if it was accepted. -/
theorem bind {i : Nat} (hi : i < a.size) (v : String) :
    (a.bind i v).1 = a.accepts i v ∧
      a.Revalued (if a.accepts i v then a.valuesWith i (some v) else a.value?) (a.bind i v).2 := by
  have hfind := h.find i
  have hvalue : (a.find i).2.value? (a.root i) = a.value? i := by
    rw [hfind.value?, h.value?_root]
  have hexcluded : (a.find i).2.isExcluded (a.root i) v = a.isExcluded i v := by
    rw [hfind.isExcluded, isExcluded, isExcluded, h.members_root hi]
  have hunfold : a.bind i v =
      match (a.find i).2.value? (a.root i) with
      | some w => (w == v, (a.find i).2)
      | none =>
        if (a.find i).2.isExcluded (a.root i) v then (false, (a.find i).2)
        else (true, (a.find i).2.modify (a.root i) fun c => { c with value := some v }) := rfl
  rw [hunfold, hvalue, hexcluded, accepts]
  cases hw : a.value? i with
  | some w =>
    refine ⟨rfl, ?_⟩
    dsimp only
    split
    · rename_i hwv
      rw [← beq_iff_eq.1 hwv, ← hw, a.valuesWith_value?]
      exact hfind
    · exact hfind
  | none =>
    cases hex : a.isExcluded i v with
    | true => exact ⟨rfl, hfind⟩
    | false => exact ⟨rfl, h.modify_find hi fun hv => by cases hv⟩

/-- **Clearing.** The class of the cell has no value afterwards, unless it is a constant. -/
theorem clear {i : Nat} (hi : i < a.size) :
    a.Revalued (if a.isConstant i then a.value? else a.valuesWith i none) (a.clear i) := by
  rw [Arena.clear]
  split
  · exact .refl h
  · rename_i hc
    exact h.modify_find hi fun _ => Bool.eq_false_iff.2 hc

/-- **Clearing a scope.** The classes of other scopes and the constants keep their values. -/
theorem clearAll (scope : Nat) :
    a.Revalued (fun j => if a.scope j = scope ∧ a.isConstant j = false then none else a.value? j)
      (a.clearAll scope) := by
  have hunfold : a.clearAll scope =
      a.revalue fun _ c => if c.scope = scope ∧ c.constant = false then none else c.value := by
    refine congrArg Arena.mk (List.ext_getElem? fun j => ?_)
    rw [List.getElem?_map, List.getElem?_mapIdx]
    refine Option.map_congr fun c _ => ?_
    simp only [Bool.and_eq_true, beq_iff_eq, Bool.not_eq_true']
    split <;> rfl
  have hvalue : (a.clearAll scope).value? =
      fun j => if a.scope j = scope ∧ a.isConstant j = false then none else a.value? j := by
    funext j
    have hconstant : a.isConstant (a.root j) = a.isConstant j := by
      by_cases hj : a.isConstant j = true
      · rw [h.root_constant hj]
      · by_cases hr : a.isConstant (a.root j) = true
        · rw [← h.eq_of_root_eq hr (h.root_root j).symm]
        · rw [Bool.eq_false_iff.2 hj, Bool.eq_false_iff.2 hr]
    have hscope := h.scope_root j
    rw [hunfold, value?_revalue, ← hconstant, ← hscope, value?, Arena.scope, isConstant]
    cases a.cells[a.root j]? with
    | none => simp
    | some c => simp
  refine ⟨?_, hunfold ▸ sameClasses_revalue _ _, hunfold ▸ partners_revalue _ _, hvalue⟩
  rw [hunfold] at hvalue ⊢
  refine h.revalue fun i hi => ?_
  rw [hvalue]
  simp only [hi, Bool.true_eq_false, and_false, if_false]
  exact h.isSome_constant i hi

end Sound

/-! ### Merging

Two roots without values become one class when the second one gets the first one as its parent.
`Arena.adopt` changes two cells for this, and `adopt_eq` puts the two changes into one function on
cells. What each question about the new arena comes to is read off this function: first the fields
of a cell, then the roots, which follow the parents, and then members and values, which are looked
up at the roots. At last these are put together to the soundness of the new arena.

The rank of the new root grows if both ranks were the same. The class is then twice as large, so it
still has at least `2 ^ rank` members. That is why ranks, and with them ways, stay short. -/

/-- The classes of two roots are one class, with the first root. -/
structure Merged (a : Arena) (r s : Nat) (b : Arena) : Prop where
  sound : b.Sound
  size : b.size = a.size
  root : ∀ i, b.root i = if a.root i = s then r else a.root i
  isConstant : b.isConstant = a.isConstant
  scope : b.scope = a.scope
  partners : b.partners = a.partners
  value? : b.value? = a.value?

/-- Two roots that may be merged, the second below the first. -/
structure Joinable (a : Arena) (r s : Nat) : Prop where
  ne : r ≠ s
  root_left : a.root r = r
  root_right : a.root s = s
  lt_left : r < a.size
  lt_right : s < a.size
  scope : a.scope r = a.scope s
  free_left : a.value? r = none
  free_right : a.value? s = none
  rank_le : a.rank s ≤ a.rank r
  apart : ∀ i ∈ a.members r, ∀ j ∈ a.members s, j ∉ a.partners i

/-- Different cells of an arena are no more than its size. -/
theorem length_le_size {a : Arena} {l : List Nat} (hl : l.Nodup) (hlt : ∀ i ∈ l, i < a.size) :
    l.length ≤ a.size := by
  have hsub : l.Subperm (List.range a.size) :=
    List.subperm_of_subset hl fun i hi => List.mem_range.2 (hlt i hi)
  simpa using hsub.length_le

/-- The rank of the root of two merged classes. -/
def mergedRank (a : Arena) (r s : Nat) : Nat :=
  if a.rank r = a.rank s then a.rank r + 1 else a.rank r

/-- What merging changes: the root `s` becomes a child of `r`, to which its members go. -/
def adoptCell (a : Arena) (r s j : Nat) (c : Cell) : Cell :=
  if j = r then { c with members := c.members ++ a.members s, rank := a.mergedRank r s }
  else if j = s then { c with parent := r, members := [] }
  else c

theorem adoptCell_left (a : Arena) (r s : Nat) (c : Cell) : a.adoptCell r s r c =
    { c with members := c.members ++ a.members s, rank := a.mergedRank r s } := if_pos rfl

namespace Joinable

variable {a : Arena} {r s : Nat} (hj : a.Joinable r s)

include hj

theorem adoptCell_right (c : Cell) :
    a.adoptCell r s s c = { c with parent := r, members := [] } := by
  rw [adoptCell, if_neg hj.ne.symm, if_pos rfl]

/-- Both changes at once. -/
theorem adopt_eq : a.adopt r s = a.mapCells (a.adoptCell r s) := by
  rw [adopt, modify_eq_mapCells, modify_eq_mapCells, mapCells_mapCells]
  refine congrArg Arena.mk (List.ext_getElem? fun j => ?_)
  rw [List.getElem?_mapIdx, List.getElem?_mapIdx]
  refine Option.map_congr fun c hc => ?_
  rw [adoptCell]
  by_cases hjr : j = r
  · have hjs : j ≠ s := fun e => hj.ne (hjr.symm.trans e)
    have hrank : a.rank r = c.rank := by rw [rank, ← hjr, hc]; rfl
    rw [if_pos hjr, if_pos hjr, if_neg hjs, mergedRank, hrank]
    simp only [beq_iff_eq]
  · rw [if_neg hjr, if_neg hjr]

/-- The fields that merging leaves as they are. -/
theorem read_adopt {β : Type} (field : Cell → β)
    (hfield : ∀ c p k ms, field { c with parent := p, rank := k, members := ms } = field c)
    (i : Nat) : (a.adopt r s).cells[i]?.map field = a.cells[i]?.map field := by
  rw [hj.adopt_eq]
  refine read_mapCells field fun c => ?_
  rw [adoptCell]
  split
  · exact hfield c c.parent _ _
  · split
    · exact hfield c r c.rank []
    · rfl

theorem size_adopt : (a.adopt r s).size = a.size := by rw [hj.adopt_eq, size_mapCells]

/-- Only the second root has another parent, … -/
theorem parent_adopt (i : Nat) : (a.adopt r s).parent i = if i = s then r else a.parent i := by
  rw [hj.adopt_eq, parent]
  split
  · rename_i hi
    rw [getElem?_mapCells, hi, List.getElem?_eq_getElem hj.lt_right, Option.map_some,
      hj.adoptCell_right]
    rfl
  · rename_i hi
    rw [read_mapCells Cell.parent, parent]
    intro c
    rw [adoptCell, if_neg hi]
    split <;> rfl

/-- … and only the first one another rank. -/
theorem rank_adopt (i : Nat) :
    (a.adopt r s).rank i = if i = r then a.mergedRank r s else a.rank i := by
  rw [hj.adopt_eq, rank]
  split
  · rename_i hi
    rw [getElem?_mapCells, hi, List.getElem?_eq_getElem hj.lt_left, Option.map_some,
      adoptCell_left]
    rfl
  · rename_i hi
    rw [read_mapCells Cell.rank, rank]
    intro c
    rw [adoptCell, if_neg hi]
    split <;> rfl

theorem isConstant_adopt : (a.adopt r s).isConstant = a.isConstant := funext fun i => by
  rw [isConstant, hj.read_adopt Cell.constant fun _ _ _ _ => rfl, isConstant]

theorem scope_adopt : (a.adopt r s).scope = a.scope := funext fun i => by
  rw [Arena.scope, hj.read_adopt Cell.scope fun _ _ _ _ => rfl, Arena.scope]

theorem partners_adopt : (a.adopt r s).partners = a.partners := funext fun i => by
  rw [partners, hj.read_adopt Cell.partners fun _ _ _ _ => rfl, partners]

theorem ne_of_mem_partners_adopt (h : a.Sound) {i j : Nat} (hi : i < a.size)
    (hmem : j ∈ a.partners i) (hir : a.root i = r) (hjs : a.root j = s) : False :=
  hj.apart i ((h.mem_members r i hj.lt_left).2 ⟨hi, hir.trans hj.root_left.symm⟩) j
    ((h.mem_members s j hj.lt_right).2 ⟨h.lt_of_mem_partners hmem, hjs.trans hj.root_right.symm⟩)
    hmem

/-- The members of the two classes are all different. -/
theorem nodup_append (h : a.Sound) : (a.members r ++ a.members s).Nodup := by
  refine List.nodup_append'.2 ⟨h.nodup_members r, h.nodup_members s, fun i hr hs => ?_⟩
  have hir := ((h.mem_members r i hj.lt_left).1 hr).2
  have his := ((h.mem_members s i hj.lt_right).1 hs).2
  exact hj.ne (hj.root_left.symm.trans (hir.symm.trans (his.trans hj.root_right)))

/-- Merging by rank doubles a class before its rank grows. -/
theorem two_pow_mergedRank_le (h : a.Sound) :
    2 ^ a.mergedRank r s ≤ (a.members r ++ a.members s).length := by
  have hr := h.two_pow_rank_le r hj.lt_left
  have hs := h.two_pow_rank_le s hj.lt_right
  rw [List.length_append, mergedRank]
  split
  · rename_i heq
    rw [← heq] at hs
    rw [Nat.pow_succ]
    omega
  · omega

theorem mergedRank_le_size (h : a.Sound) : a.mergedRank r s ≤ a.size := by
  have hlength : (a.members r ++ a.members s).length ≤ a.size := by
    refine length_le_size (hj.nodup_append h) fun i hi => ?_
    rcases List.mem_append.1 hi with hi | hi
    · exact ((h.mem_members r i hj.lt_left).1 hi).1
    · exact ((h.mem_members s i hj.lt_right).1 hi).1
  have hpow := hj.two_pow_mergedRank_le h
  have hlt : a.mergedRank r s < 2 ^ a.mergedRank r s := Nat.lt_two_pow_self
  omega

/-- Ranks still grow along the ways. -/
theorem ranked_adopt (h : a.Sound) : (a.adopt r s).Ranked := by
  have hgrows : a.rank r ≤ a.mergedRank r s := by rw [mergedRank]; split <;> omega
  refine ⟨fun i hi => ?_, fun i => ?_⟩
  · rw [hj.parent_adopt] at hi ⊢
    rw [hj.rank_adopt, hj.rank_adopt]
    split at hi
    · rename_i his
      have hle := hj.rank_le
      rw [if_neg (his ▸ hj.ne.symm), if_pos his, if_pos rfl, his, mergedRank]
      split <;> omega
    · rename_i his
      have hlt := h.rank_lt i hi
      have hir : i ≠ r := by
        rintro rfl
        exact hi (h.parent_eq_iff.2 hj.root_left)
      rw [if_neg hir, if_neg his]
      split
      · rename_i hpr
        rw [hpr] at hlt
        omega
      · exact hlt
  · rw [hj.rank_adopt, hj.size_adopt]
    split
    · exact hj.mergedRank_le_size h
    · exact h.rank_le i

/-- The class of `s` has the root `r` afterwards. -/
theorem root_adopt (h : a.Sound) (i : Nat) :
    (a.adopt r s).root i = if a.root i = s then r else a.root i := by
  refine (hj.ranked_adopt h).root_eq (fun i => if a.root i = s then r else a.root i)
    (fun i => ?_) (fun i hi => ?_) i
  · rw [hj.parent_adopt]
    split
    · rename_i his
      simp only [his, hj.root_left, hj.root_right, if_neg hj.ne, if_true]
    · rw [h.root_parent]
  · rw [hj.parent_adopt] at hi
    split at hi
    · rename_i his
      exact absurd (hi.trans his) hj.ne
    · rename_i his
      have hroot := Ranked.root_of_parent hi
      simp only [hroot, if_neg his]

/-- Two cells are in one class if they were, or if both are in one of the merged classes. -/
theorem root_adopt_eq_iff (h : a.Sound) {i j : Nat} :
    (a.adopt r s).root j = (a.adopt r s).root i ↔
      a.root j = a.root i ∨ (a.root i = r ∨ a.root i = s) ∧ (a.root j = r ∨ a.root j = s) := by
  have hne := hj.ne
  rw [hj.root_adopt h, hj.root_adopt h]
  split <;> split <;> omega

/-- The members of the second class come after those of the first. -/
theorem members_adopt (h : a.Sound) {i : Nat} (hi : i < a.size) : (a.adopt r s).members i =
    if a.root i = r ∨ a.root i = s then a.members r ++ a.members s else a.members i := by
  have hlt := h.root_lt hi
  obtain ⟨c, hr⟩ : ∃ c, a.cells[r]? = some c := ⟨_, List.getElem?_eq_getElem hj.lt_left⟩
  rw [members, hj.root_adopt h, hj.adopt_eq]
  by_cases hjoined : a.root i = r ∨ a.root i = s
  · have hroot : (if a.root i = s then r else a.root i) = r := by split <;> omega
    have hmembers : a.members r = c.members := by
      rw [members, hj.root_left, hr]
      rfl
    rw [if_pos hjoined, hroot, getElem?_mapCells, hr, Option.map_some, adoptCell_left,
      hmembers]
    rfl
  · have hroot : (if a.root i = s then r else a.root i) = a.root i := if_neg (by omega)
    rw [if_neg hjoined, hroot, read_mapCells Cell.members, members]
    intro c
    rw [adoptCell, if_neg (by omega), if_neg (by omega)]

/-- No cell has got a value. -/
theorem value?_adopt (h : a.Sound) : (a.adopt r s).value? = a.value? := funext fun i => by
  have hread : ∀ j : Nat,
      (a.adopt r s).cells[j]?.bind Cell.value = a.cells[j]?.bind Cell.value := by
    intro j
    have := hj.read_adopt Cell.value (fun _ _ _ _ => rfl) j
    cases hb : (a.adopt r s).cells[j]? <;> cases ha : a.cells[j]? <;> simp_all
  rw [value?, hj.root_adopt h, hread]
  split
  · rename_i his
    -- both classes had no value
    have hri : a.cells[r]?.bind Cell.value = a.value? r := by rw [value?, hj.root_left]
    rw [hri, hj.free_left, ← hj.free_right, value?, value?, his, hj.root_right]
  · rfl

/-- The list of members is that of the cells with the same root. -/
theorem mem_members_adopt (h : a.Sound) {i j : Nat} (hi : i < a.size) :
    j ∈ (a.adopt r s).members i ↔ j < a.size ∧ (a.adopt r s).root j = (a.adopt r s).root i := by
  rw [hj.members_adopt h hi, hj.root_adopt_eq_iff h]
  have hr := h.mem_members r j hj.lt_left
  have hs := h.mem_members s j hj.lt_right
  rw [hj.root_left] at hr
  rw [hj.root_right] at hs
  split
  · rw [List.mem_append, hr, hs]
    omega
  · rw [h.mem_members i j hi]
    omega

theorem nodup_members_adopt (h : a.Sound) (i : Nat) : ((a.adopt r s).members i).Nodup := by
  by_cases hi : i < a.size
  · rw [hj.members_adopt h hi]
    split
    · exact hj.nodup_append h
    · exact h.nodup_members i
  · rw [members_of_size_le (hj.size_adopt ▸ Nat.not_lt.1 hi)]
    exact List.nodup_singleton i

/-- The class of the new root is large enough for its rank, and all others are as they were. -/
theorem two_pow_rank_adopt_le (h : a.Sound) {i : Nat} (hi : i < a.size) :
    2 ^ (a.adopt r s).rank i ≤ ((a.adopt r s).members i).length := by
  rw [hj.rank_adopt, hj.members_adopt h hi]
  split
  · rename_i hir
    rw [if_pos (.inl (hir ▸ hj.root_left))]
    exact hj.two_pow_mergedRank_le h
  · have hpow := h.two_pow_rank_le i hi
    split
    · rename_i hroot
      have hmembers : a.members i = a.members r ∨ a.members i = a.members s :=
        hroot.imp (fun hr => h.members_eq_of_root hi (hr.trans hj.root_left.symm))
          fun hs => h.members_eq_of_root hi (hs.trans hj.root_right.symm)
      rw [List.length_append]
      rcases hmembers with hm | hm <;> rw [hm] at hpow <;> omega
    · exact hpow

/-- A constant has a value, so it is in neither class. -/
theorem root_ne_of_isConstant (h : a.Sound) {i : Nat} (hi : a.isConstant i = true) :
    ¬(a.root i = r ∨ a.root i = s) := by
  have hsome := h.isSome_constant i hi
  rintro (hroot | hroot)
  · rw [value?_eq_of_root (hroot.trans hj.root_left.symm), hj.free_left] at hsome
    cases hsome
  · rw [value?_eq_of_root (hroot.trans hj.root_right.symm), hj.free_right] at hsome
    cases hsome

/-- No mark is between members of the merged class. -/
theorem root_adopt_ne_of_mem_partners (h : a.Sound) {i k : Nat} (hmem : k ∈ a.partners i) :
    (a.adopt r s).root i ≠ (a.adopt r s).root k := by
  intro hroot
  have hi := lt_size_of_mem_partners hmem
  have hne := h.root_ne_of_mem_partners i k hmem
  rcases (hj.root_adopt_eq_iff h).1 hroot with heq | ⟨hkr | hks, hir | his⟩
  · exact hne heq
  · exact hne (hir.trans hkr.symm)
  · exact hj.ne_of_mem_partners_adopt h (h.lt_of_mem_partners hmem) (h.partners_comm i k hmem)
      hkr his
  · exact hj.ne_of_mem_partners_adopt h hi hmem hir hks
  · exact hne (his.trans hks.symm)

/-- **Merging keeps an arena sound.** -/
theorem sound_adopt (h : a.Sound) : (a.adopt r s).Sound := by
  refine
    { toRanked := hj.ranked_adopt h
      parent_lt := fun i hi => ?_
      mem_members := fun i j hi => ?_
      nodup_members := hj.nodup_members_adopt h
      two_pow_rank_le := fun i hi => hj.two_pow_rank_adopt_le h (hj.size_adopt ▸ hi)
      members_constant := fun i hi => ?_
      isSome_constant := ?_
      partners_comm := ?_
      root_ne_of_mem_partners := fun i j hmem => ?_
      scope_parent := fun i => ?_
      scope_of_mem_partners := ?_ }
  · rw [hj.size_adopt] at hi ⊢
    rw [hj.parent_adopt]
    split
    · exact hj.lt_left
    · exact h.parent_lt i hi
  · rw [hj.size_adopt] at hi ⊢
    exact hj.mem_members_adopt h hi
  · rw [hj.isConstant_adopt] at hi
    rw [hj.members_adopt h (lt_size_of_isConstant hi), if_neg (hj.root_ne_of_isConstant h hi)]
    exact h.members_constant i hi
  · rw [hj.isConstant_adopt, hj.value?_adopt h]
    exact h.isSome_constant
  · rw [hj.partners_adopt]
    exact h.partners_comm
  · rw [hj.partners_adopt] at hmem
    exact hj.root_adopt_ne_of_mem_partners h hmem
  · rw [hj.scope_adopt, hj.parent_adopt]
    split
    · rename_i his
      rw [his, hj.scope]
    · exact h.scope_parent i
  · rw [hj.partners_adopt, hj.scope_adopt]
    exact h.scope_of_mem_partners

/-- **Merging two classes.** -/
theorem merged (h : a.Sound) : a.Merged r s (a.adopt r s) :=
  ⟨hj.sound_adopt h, hj.size_adopt, hj.root_adopt h, hj.isConstant_adopt, hj.scope_adopt,
    hj.partners_adopt, hj.value?_adopt h⟩

end Joinable

/-! ### Linking

A link ends in one of three ways: nothing is changed, one class gets the value of the other one, or
two classes without values are merged. Which of them it is depends on the two roots only, so what
both searches for roots shorten is set apart first. -/

/-- What linking two cells may do: the answer, and the arena afterwards. -/
inductive Linked (a : Arena) (i j : Nat) : Bool × Arena → Prop
  | already {b : Arena} : a.root i = a.root j → a.Revalued a.value? b → Linked a i j (true, b)
  | refused {b : Arena} : a.root i ≠ a.root j → a.areDistinct i j = true →
      a.Revalued a.value? b → Linked a i j (false, b)
  | compared {b : Arena} {v w : String} : a.root i ≠ a.root j → a.areDistinct i j = false →
      a.value? i = some v → a.value? j = some w → a.Revalued a.value? b →
      Linked a i j (v == w, b)
  | boundRight {b : Arena} {v : String} : a.root i ≠ a.root j → a.areDistinct i j = false →
      a.value? i = some v → a.value? j = none →
      a.Revalued (if a.accepts j v then a.valuesWith j (some v) else a.value?) b →
      Linked a i j (a.accepts j v, b)
  | boundLeft {b : Arena} {w : String} : a.root i ≠ a.root j → a.areDistinct i j = false →
      a.value? i = none → a.value? j = some w →
      a.Revalued (if a.accepts i w then a.valuesWith i (some w) else a.value?) b →
      Linked a i j (a.accepts i w, b)
  | merged {b : Arena} {r s : Nat} : a.root i ≠ a.root j → a.areDistinct i j = false →
      a.value? i = none → a.value? j = none →
      r = a.root i ∧ s = a.root j ∨ r = a.root j ∧ s = a.root i → a.Merged r s b →
      Linked a i j (true, b)

/-- Linking two cells whose roots are known. -/
def linkRoots (a : Arena) (i j r s : Nat) : Bool × Arena :=
  if r = s then (true, a)
  else if a.areDistinct r s then (false, a)
  else match a.value? r, a.value? s with
    | some v, some w => (v == w, a)
    | some v, none => a.bind j v
    | none, some w => a.bind i w
    | none, none => (true, if a.rank r < a.rank s then a.adopt s r else a.adopt r s)

theorem Revalued.merged {a b c : Arena} {r s : Nat} (hb : a.Revalued a.value? b)
    (hc : b.Merged r s c) : a.Merged r s c :=
  ⟨hc.sound, hc.size.trans hb.same.size, fun i => by rw [hc.root, hb.same.root],
    hc.isConstant.trans hb.same.isConstant, hc.scope.trans hb.same.scope,
    hc.partners.trans hb.partners, hc.value?.trans hb.value?⟩

/-- Two cells are distinct if they hold different values, or if a mark is between their classes. -/
theorem areDistinct_iff {a : Arena} {i j : Nat} : a.areDistinct i j = true ↔
    a.scope i = a.scope j ∧ ∃ m ∈ a.members i, ∃ p ∈ a.members j, p ∈ a.partners m := by
  simp only [areDistinct, Bool.and_eq_true, beq_iff_eq, List.any_eq_true, List.contains_iff_mem]
  constructor
  · rintro ⟨hscope, m, hm, p, hp, hj⟩
    exact ⟨hscope, m, hm, p, hj, hp⟩
  · rintro ⟨hscope, m, hm, p, hj, hp⟩
    exact ⟨hscope, m, hm, p, hp, hj⟩

namespace Sound

variable {a : Arena} (h : a.Sound)

include h

theorem areDistinct_root {i j : Nat} (hi : i < a.size) (hj : j < a.size) :
    a.areDistinct (a.root i) (a.root j) = a.areDistinct i j := by
  rw [areDistinct, areDistinct, h.members_root hi, h.members_root hj, h.scope_root, h.scope_root]

omit h in
/-- Two roots of unbound classes without marks between them may be merged. -/
theorem joinable {r s : Nat} (hrank : a.rank s ≤ a.rank r) (hne : r ≠ s) (hr : a.root r = r)
    (hs : a.root s = s) (hrlt : r < a.size) (hslt : s < a.size) (hscope : a.scope r = a.scope s)
    (hdistinct : a.areDistinct r s = false) (hvr : a.value? r = none) (hvs : a.value? s = none) :
    a.Joinable r s := by
  refine ⟨hne, hr, hs, hrlt, hslt, hscope, hvr, hvs, hrank, fun i hi j hj hmark => ?_⟩
  rw [Bool.eq_false_iff] at hdistinct
  exact hdistinct (areDistinct_iff.2 ⟨hscope, i, hi, j, hj, hmark⟩)

theorem areDistinct_comm {i j : Nat} : a.areDistinct i j = a.areDistinct j i := by
  have hsymm : ∀ i j, a.areDistinct i j = true → a.areDistinct j i = true := by
    intro i j hij
    obtain ⟨hscope, m, hm, p, hp, hmark⟩ := areDistinct_iff.1 hij
    exact areDistinct_iff.2 ⟨hscope.symm, p, hp, m, hm, h.partners_comm m p hmark⟩
  exact Bool.eq_iff_iff.2 ⟨hsymm i j, hsymm j i⟩

/-- Two roots of unbound classes are merged by rank. -/
theorem merge {r s : Nat} (hne : r ≠ s) (hr : a.root r = r) (hs : a.root s = s)
    (hrlt : r < a.size) (hslt : s < a.size) (hscope : a.scope r = a.scope s)
    (hdistinct : a.areDistinct r s = false) (hvr : a.value? r = none) (hvs : a.value? s = none) :
    ∃ x y, (x = r ∧ y = s ∨ x = s ∧ y = r) ∧
      a.Merged x y (if a.rank r < a.rank s then a.adopt s r else a.adopt r s) := by
  by_cases hrank : a.rank r < a.rank s
  · rw [if_pos hrank]
    exact ⟨s, r, .inr ⟨rfl, rfl⟩, (joinable (Nat.le_of_lt hrank) hne.symm hs hr hslt hrlt
      hscope.symm (h.areDistinct_comm ▸ hdistinct) hvs hvr).merged h⟩
  · rw [if_neg hrank]
    exact ⟨r, s, .inl ⟨rfl, rfl⟩, (joinable (Nat.not_lt.1 hrank) hne hr hs hrlt hslt hscope
      hdistinct hvr hvs).merged h⟩

/-- Both roots are looked for, which is not noticed, before anything is done. -/
theorem linkWithin_eq (i j : Nat) : ∃ b, a.Revalued a.value? b ∧
    a.linkWithin i j = b.linkRoots i j (a.root i) (a.root j) := by
  have hfind := h.find i
  have hfind' := hfind.sound.find j
  rw [hfind.value?] at hfind'
  have hroot : (a.find i).2.root j = a.root j := congrFun hfind.same.root j
  refine ⟨_, hfind.trans hfind', ?_⟩
  rw [← hroot]
  rfl

/-- **Linking**, by the classes and the values of the two cells. -/
theorem linkWithin {i j : Nat} (hi : i < a.size) (hj : j < a.size)
    (hscope : a.scope i = a.scope j) : a.Linked i j (a.linkWithin i j) := by
  obtain ⟨b, hb, hunfold⟩ := h.linkWithin_eq i j
  have hroot := congrFun hb.same.root
  have hvalue : ∀ k, b.value? (a.root k) = a.value? k := fun k => by rw [hb.value?, h.value?_root]
  have hdistinct : b.areDistinct (a.root i) (a.root j) = a.areDistinct i j := by
    rw [hb.areDistinct, h.areDistinct_root hi hj]
  rw [hunfold, linkRoots]
  by_cases hsame : a.root i = a.root j
  · rw [if_pos hsame]
    exact .already hsame hb
  rw [if_neg hsame, hdistinct]
  cases hmarks : a.areDistinct i j with
  | true => exact .refused hsame hmarks hb
  | false =>
    have hbind : ∀ {k : Nat}, k < a.size → ∀ v, (b.bind k v).1 = a.accepts k v ∧
        a.Revalued (if a.accepts k v then a.valuesWith k (some v) else a.value?)
          (b.bind k v).2 := by
      intro k hk v
      have hbound := hb.sound.bind (hb.same.size ▸ hk) v
      rw [hb.accepts, hb.valuesWith, hb.value?] at hbound
      exact ⟨hbound.1, hb.trans hbound.2⟩
    rw [if_neg Bool.false_ne_true, hvalue, hvalue]
    cases hvi : a.value? i with
    | some v =>
      cases hvj : a.value? j with
      | some w => exact .compared hsame hmarks hvi hvj hb
      | none =>
        obtain ⟨hanswer, hrest⟩ := hbind hj v
        have hpair : b.bind j v = (a.accepts j v, (b.bind j v).2) := Prod.ext hanswer rfl
        simp only
        rw [hpair]
        exact .boundRight hsame hmarks hvi hvj hrest
    | none =>
      cases hvj : a.value? j with
      | some w =>
        obtain ⟨hanswer, hrest⟩ := hbind hi w
        have hpair : b.bind i w = (a.accepts i w, (b.bind i w).2) := Prod.ext hanswer rfl
        simp only
        rw [hpair]
        exact .boundLeft hsame hmarks hvi hvj hrest
      | none =>
        have hlt : ∀ {k : Nat}, k < a.size → a.root k < b.size := fun hk =>
          hb.same.size.symm ▸ h.root_lt hk
        have hroots : ∀ k, b.root (a.root k) = a.root k := fun k => by rw [hroot, h.root_root]
        have hscopes : b.scope (a.root i) = b.scope (a.root j) := by
          rw [hb.same.scope, h.scope_root, h.scope_root, hscope]
        obtain ⟨x, y, hxy, hmerged⟩ := hb.sound.merge hsame (hroots i) (hroots j) (hlt hi) (hlt hj)
          hscopes (hdistinct.trans hmarks) ((hvalue i).trans hvi) ((hvalue j).trans hvj)
        exact .merged hsame hmarks hvi hvj hxy (hb.merged hmerged)

end Sound

/-! ### Marks

A mark is put on two cells, not on their classes. Roots, members and values do not see it. -/

/-- Changing the marks of one cell keeps the trees. -/
theorem keepsTrees_mark (i : Nat) (f : List Nat → List Nat) :
    KeepsTrees fun j c => if j = i then { c with partners := f c.partners } else c := by
  constructor <;> intro j c <;> split <;> rfl

theorem KeepsTrees.comp {g g' : Nat → Cell → Cell} (hg : KeepsTrees g) (hg' : KeepsTrees g') :
    KeepsTrees fun i c => g' i (g i c) where
  parent i c := (hg'.parent i _).trans (hg.parent i c)
  rank i c := (hg'.rank i _).trans (hg.rank i c)
  members i c := (hg'.members i _).trans (hg.members i c)
  constant i c := (hg'.constant i _).trans (hg.constant i c)
  scope i c := (hg'.scope i _).trans (hg.scope i c)

/-- Marks bind nothing. -/
theorem value?_mark (a : Arena) (i : Nat) (f : List Nat → List Nat) :
    (a.modify i fun c => { c with partners := f c.partners }).value? = a.value? := by
  have hroot := ((keepsTrees_mark i f).sameClasses a).root
  rw [modify_eq_mapCells]
  funext k
  rw [value?, hroot, getElem?_mapCells, value?]
  cases a.cells[a.root k]? with
  | none => rfl
  | some c =>
    rw [Option.map_some, Option.bind_some, Option.bind_some]
    split <;> rfl

/-- **Marking two cells** of different classes of one scope. -/
theorem Sound.markDistinct {a : Arena} (h : a.Sound) {i j : Nat} (hi : i < a.size)
    (hj : j < a.size) (hscope : a.scope i = a.scope j) (hroot : a.root i ≠ a.root j) :
    ∃ b, a.markDistinct i j = .ok b ∧ b.Sound ∧ a.SameClasses b ∧ b.value? = a.value? ∧
      ∀ k m, m ∈ b.partners k ↔ m ∈ a.partners k ∨ (k = i ∧ m = j ∨ k = j ∧ m = i) := by
  refine ⟨_, by rw [Arena.markDistinct, if_neg (not_not.2 hscope), if_neg hroot], ?_⟩
  have hmarks : ∀ k m,
      m ∈ ((a.modify i fun c => { c with partners := c.partners.insert j }).modify j
        fun c => { c with partners := c.partners.insert i }).partners k ↔
      m ∈ a.partners k ∨ (k = i ∧ m = j ∨ k = j ∧ m = i) := by
    intro k m
    rw [mem_partners_modify (by rwa [size_modify]), mem_partners_modify hi, or_assoc]
  have hvalue := (value?_mark (a.modify i fun c => { c with partners := c.partners.insert j }) j
    (·.insert i)).trans (value?_mark a i (·.insert j))
  rw [modify_eq_mapCells, modify_eq_mapCells, mapCells_mapCells] at hmarks hvalue ⊢
  have hg := (keepsTrees_mark i (·.insert j)).comp (keepsTrees_mark j (·.insert i))
  refine ⟨hg.sound h (fun k hk => ?_) (fun k m hm => ?_) (fun k m hm => ?_), hg.sameClasses a,
    hvalue, hmarks⟩
  · rw [hvalue]
    exact h.isSome_constant k hk
  · rw [hmarks] at hm ⊢
    rcases hm with hm | ⟨hk, hm⟩ | ⟨hk, hm⟩
    · exact .inl (h.partners_comm k m hm)
    · exact .inr (.inr ⟨hm, hk⟩)
    · exact .inr (.inl ⟨hm, hk⟩)
  · rw [hmarks] at hm
    rcases hm with hm | ⟨rfl, rfl⟩ | ⟨rfl, rfl⟩
    · exact ⟨h.root_ne_of_mem_partners k m hm, h.scope_of_mem_partners k m hm⟩
    · exact ⟨hroot, hscope.symm⟩
    · exact ⟨hroot.symm, hscope⟩

end Arena

end Strips
