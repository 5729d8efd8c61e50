import Mathlib.Tactic.SplitIfs
import Strips.Files.Tree

/-!
# What operations on files leave alone

Directories are only added, so a path that leads somewhere leads there ever after. A file changes
only when it is written, and so whatever is done to a tree, the files that no written path leads to
stay as they are. It is enough to know at the end where the paths lead.

## Main definitions

* `FileTree.Grows` – a tree with more directories.
* `FileTree.Changes` – a tree in which nothing but the files at some paths may have changed.

## Main results

* `FileTree.changes_makeDirectories`, `FileTree.changes_writeFile` – what operations change.
* `FileTree.Changes.trans` – one operation after the other.
* `FileTree.contents?_of_writeFile_ok` – what is written is there.
* `FileTree.exists_of_locate_join_join` – where paths with names at the end lead.
-/

namespace Strips

namespace FileTree

variable {t t' t'' : FileTree} {p : Path}

/-! ### Walking -/

/-- More directories, and the same working directory. -/
structure Grows (t t' : FileTree) : Prop where
  here : t'.here = t.here
  directories : t.directories ⊆ t'.directories

theorem Grows.refl (t : FileTree) : t.Grows t := ⟨rfl, List.Subset.refl _⟩

theorem Grows.trans (h : t.Grows t') (h' : t'.Grows t'') : t.Grows t'' :=
  ⟨h'.here.trans h.here, List.Subset.trans h.directories h'.directories⟩

theorem Grows.isDirectory (h : t.Grows t') {l : Location} (hl : t.isDirectory l = true) :
    t'.isDirectory l = true :=
  List.contains_iff_mem.2 (h.directories (List.contains_iff_mem.1 hl))

/-- Where a part leads from a directory. -/
def enter (l : Location) (part : String) : Option Location :=
  if part = "." then some l
  else if part = ".." then some l.dropLast
  else if maxNameBytes < part.utf8ByteSize then none
  else some (l ++ [part])

/-- A walk goes from directory to directory. -/
theorem walk_cons_eq_ok_iff {l m : Location} {part : String} {parts : List String} :
    t.walk l (part :: parts) = .ok m ↔
      t.isDirectory l = true ∧ ∃ k, enter l part = some k ∧ t.walk k parts = .ok m := by
  rw [walk, enter]
  cases t.isDirectory l with
  | false => simp
  | true =>
    simp only [Bool.not_true, Bool.false_eq_true, if_false, true_and]
    split_ifs <;> simp

/-- A walk that ends somewhere ends there in a tree with more directories. -/
theorem Grows.walk_eq_ok (h : t.Grows t') {m : Location} : ∀ {parts : List String} {l : Location},
    t.walk l parts = .ok m → t'.walk l parts = .ok m
  | [], _, hwalk => hwalk
  | _ :: _, _, hwalk => by
    obtain ⟨hdirectory, k, hk, hwalk⟩ := walk_cons_eq_ok_iff.1 hwalk
    exact walk_cons_eq_ok_iff.2 ⟨h.isDirectory hdirectory, k, hk, h.walk_eq_ok hwalk⟩

/-- **A path that leads somewhere leads there ever after.** -/
theorem Grows.locate_eq_ok (h : t.Grows t') {l : Location} (hl : t.locate p = .ok l) :
    t'.locate p = .ok l := by
  rw [locate] at hl ⊢
  split at hl
  · cases hl
  · rw [h.here]
    exact h.walk_eq_ok hl

/-! ### What is changed -/

/-- Nothing has changed but the files that some paths lead to, and no directory is missing. -/
structure Changes (t t' : FileTree) (paths : List Path) : Prop where
  grows : t.Grows t'
  contents : ∀ l, (∀ p ∈ paths, t'.locate p ≠ .ok l) → t'.contents? l = t.contents? l

namespace Changes

variable {paths more : List Path}

theorem refl (t : FileTree) (paths : List Path) : t.Changes t paths := ⟨.refl t, fun _ _ => rfl⟩

theorem mono (h : t.Changes t' paths) (hmore : paths ⊆ more) : t.Changes t' more :=
  ⟨h.grows, fun l hl => h.contents l fun p hp => hl p (hmore hp)⟩

/-- **One change after the other.** A path that led to a file still does, so it is enough to look at
the end where paths lead. -/
theorem trans (h : t.Changes t' paths) (h' : t'.Changes t'' paths) : t.Changes t'' paths := by
  refine ⟨h.grows.trans h'.grows, fun l hl => ?_⟩
  have hbefore : ∀ p ∈ paths, t'.locate p ≠ .ok l :=
    fun p hp hlead => hl p hp (h'.grows.locate_eq_ok hlead)
  exact (h'.contents l hl).trans (h.contents l hbefore)

end Changes

/-! ### Making directories -/

theorem changes_makeDirectory (h : t.makeDirectory p = .ok t') : t.Changes t' [] := by
  rw [makeDirectory] at h
  split at h
  · cases h
  · split at h
    · cases h
    · obtain rfl := Except.ok.inj h
      exact ⟨⟨rfl, List.subset_append_left _ _⟩, fun _ _ => rfl⟩

theorem changes_makeWithParents : ∀ (depth : Nat) (t : FileTree) (p : Path),
    t.Changes (t.makeWithParents p depth).2 []
  | 0, t, p => .refl t []
  | depth + 1, t, p => by
    rw [makeWithParents]
    split
    · rename_i t' hmake
      exact changes_makeDirectory hmake
    · have hparent := changes_makeWithParents depth t p.parent
      split
      · rename_i e t' heq
        rw [heq] at hparent
        exact hparent
      · rename_i t' heq
        rw [heq] at hparent
        split
        · rename_i t'' hmake
          exact hparent.trans (changes_makeDirectory hmake)
        · exact hparent
    · exact .refl t []

/-- **Making directories changes no file.** -/
theorem changes_makeDirectories (t : FileTree) (p : Path) :
    t.Changes (t.makeDirectories p).2 [] :=
  changes_makeWithParents _ t p

/-! ### Writing files -/

theorem lookup_cons_eq (k m : Location) (bytes : ByteArray) (files : List (Location × ByteArray)) :
    ((k, bytes) :: files).lookup m = if m = k then some bytes else files.lookup m := by
  rw [List.lookup_cons]
  by_cases h : m = k
  · rw [if_pos h, beq_iff_eq.2 h]
  · rw [if_neg h, beq_eq_false_iff_ne.2 h]

theorem lookup_putFile (l m : Location) (bytes : ByteArray) :
    ∀ files : List (Location × ByteArray),
      (putFile l bytes files).lookup m = if m = l then some bytes else files.lookup m
  | [] => lookup_cons_eq l m bytes []
  | (k, old) :: files => by
    rw [putFile]
    split
    · rename_i hk
      rw [lookup_cons_eq, lookup_cons_eq, hk]
      split <;> rfl
    · rename_i hk
      rw [lookup_cons_eq, lookup_cons_eq, lookup_putFile l m bytes files]
      by_cases hm : m = k
      · rw [if_pos hm, if_pos hm, if_neg (hm ▸ hk)]
      · rw [if_neg hm, if_neg hm]

/-- A file can be written where a path leads, if there is no directory but one to write it in. -/
theorem writeFile_cases (t : FileTree) (p : Path) (bytes : ByteArray) :
    (∃ e, t.writeFile p bytes = (.error e, t)) ∨
      ∃ l, t.locate p = .ok l ∧
        t.writeFile p bytes = (.ok (), { t with files := putFile l bytes t.files }) := by
  rw [writeFile]
  split
  · exact .inl ⟨_, rfl⟩
  · rename_i l hl
    split_ifs
    · exact .inl ⟨_, rfl⟩
    · exact .inl ⟨_, rfl⟩
    · exact .inr ⟨l, hl, rfl⟩

/-- **Writing changes the file that the path leads to**, and nothing else. -/
theorem changes_writeFile (t : FileTree) (p : Path) (bytes : ByteArray) :
    t.Changes (t.writeFile p bytes).2 [p] := by
  rcases t.writeFile_cases p bytes with ⟨e, heq⟩ | ⟨l, hl, heq⟩
  · rw [heq]
    exact .refl t [p]
  · rw [heq]
    have hgrows : t.Grows { t with files := putFile l bytes t.files } := ⟨rfl, List.Subset.refl _⟩
    refine ⟨hgrows, fun m hm => ?_⟩
    have hne : m ≠ l := by
      rintro rfl
      exact hm p List.mem_cons_self (hgrows.locate_eq_ok hl)
    rw [contents?, lookup_putFile, if_neg hne]
    rfl

/-- What is written is there. -/
theorem contents?_of_writeFile_ok {bytes : ByteArray} (h : t.writeFile p bytes = (.ok (), t')) :
    ∃ l, t'.locate p = .ok l ∧ t'.contents? l = some bytes := by
  rcases t.writeFile_cases p bytes with ⟨e, heq⟩ | ⟨l, hl, heq⟩
  · rw [heq] at h
    cases h
  · rw [heq] at h
    obtain ⟨-, rfl⟩ := Prod.mk.inj h
    have hgrows : t.Grows { t with files := putFile l bytes t.files } := ⟨rfl, List.Subset.refl _⟩
    refine ⟨l, hgrows.locate_eq_ok hl, ?_⟩
    rw [contents?, lookup_putFile, if_pos rfl]

end FileTree

/-! ### Names at the end of a path -/

/-- A name is one part of a path, and none that leads back. -/
structure IsName (name : String) : Prop where
  slash : '/' ∉ name.toList
  nonempty : name ≠ ""
  dot : name ≠ "."
  dots : name ≠ ".."

theorem splitSlashes_eq_singleton : ∀ {cs : List Char}, '/' ∉ cs → splitSlashes cs = [cs]
  | [], _ => rfl
  | c :: cs, h => by
    obtain ⟨hc, hcs⟩ := not_or.1 (mt List.mem_cons.2 h)
    rw [splitSlashes, if_neg fun heq => hc heq.symm, splitSlashes_eq_singleton hcs]

theorem Path.rootOf_eq_empty {cs : List Char} (h : '/' ∉ cs) : rootOf cs = "" := by
  unfold rootOf
  split
  all_goals first | rfl | exact absurd List.mem_cons_self h

namespace IsName

variable {name : String} (h : IsName name)

include h

theorem join_eq (p : Path) : p.join name = ⟨p.root, p.parts ++ [name]⟩ := by
  have hpath : Path.ofString name = ⟨"", [name]⟩ := by
    rw [Path.ofString, splitSlashes_eq_singleton h.slash, Path.rootOf_eq_empty h.slash,
      List.map_singleton, String.ofList_toList]
    simp [h.nonempty, h.dot]
  rw [Path.join, hpath]
  rfl

theorem enter_eq_some {l k : Location} (hk : FileTree.enter l name = some k) : k = l ++ [name] := by
  rw [FileTree.enter, if_neg h.dot, if_neg h.dots] at hk
  split at hk
  · cases hk
  · exact (Option.some.inj hk).symm

end IsName

namespace FileTree

variable {t : FileTree}

theorem walk_append_eq_ok_iff {ys : List String} {m : Location} : ∀ {xs : List String}
    {l : Location}, t.walk l (xs ++ ys) = .ok m ↔
      ∃ k, t.walk l xs = .ok k ∧ t.walk k ys = .ok m
  | [], l => by simp [walk]
  | x :: xs, l => by
    rw [List.cons_append, walk_cons_eq_ok_iff]
    simp only [walk_cons_eq_ok_iff, walk_append_eq_ok_iff]
    constructor
    · rintro ⟨hl, j, hj, k, hk, hm⟩
      exact ⟨k, ⟨hl, j, hj, hk⟩, hm⟩
    · rintro ⟨k, ⟨hl, j, hj, hk⟩, hm⟩
      exact ⟨hl, j, hj, k, hk, hm⟩

theorem exists_of_walk_concat {parts : List String} {name : String} (h : IsName name)
    {l m : Location} (hm : t.walk l (parts ++ [name]) = .ok m) :
    ∃ k, t.walk l parts = .ok k ∧ m = k ++ [name] := by
  obtain ⟨k, hk, hwalk⟩ := walk_append_eq_ok_iff.1 hm
  obtain ⟨-, _, henter, hwalk⟩ := walk_cons_eq_ok_iff.1 hwalk
  obtain rfl := h.enter_eq_some henter
  exact ⟨k, hk, (Except.ok.inj hwalk).symm⟩

theorem walk_of_locate {p : Path} {l : Location} (h : t.locate p = .ok l) :
    t.walk (if p.isAbsolute then [] else t.here) p.parts = .ok l := by
  rw [locate] at h
  split at h
  · cases h
  · exact h

/-- A path with a name at the end leads to a place of this name. -/
theorem exists_of_locate_join {p : Path} {name : String} (h : IsName name) {l : Location}
    (hl : t.locate (p.join name) = .ok l) : ∃ k, l = k ++ [name] := by
  have hwalk := walk_of_locate hl
  rw [h.join_eq] at hwalk
  obtain ⟨k, -, hk⟩ := exists_of_walk_concat h hwalk
  exact ⟨k, hk⟩

/-- **So does one with two names.** -/
theorem exists_of_locate_join_join {p : Path} {x y : String} (hx : IsName x) (hy : IsName y)
    {l : Location} (hl : t.locate ((p.join x).join y) = .ok l) : ∃ k, l = k ++ [x] ++ [y] := by
  have hwalk := walk_of_locate hl
  rw [hy.join_eq, hx.join_eq] at hwalk
  obtain ⟨j, hj, rfl⟩ := exists_of_walk_concat hy hwalk
  obtain ⟨k, -, rfl⟩ := exists_of_walk_concat hx hj
  exact ⟨k, rfl⟩

end FileTree

end Strips
