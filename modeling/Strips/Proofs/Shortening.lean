import Strips.Proofs.Partition

/-!
# Ways are shortened wherever a root is looked for

Whoever looks for a root shortens the way to it. Binding a cell looks not only for its own root but
for those of the cells that are distinct from its class, to see what they hold, and marking two
cells looks for the roots of both, even if the marks are refused. `Arena.bind` and
`Arena.markDistinct` only read these roots off, which is how they are described most easily.

Here these operations are written out with every root looked for. What is distinct from a cell is a
set then, so the order in which it is gone through is left open. A run of such operations is a run
of calls with calls of `find` between them, and so nothing that holds after all runs of calls is
lost: the arenas that come up are among those of all runs of calls.

## Main definitions

* `Arena.findAll` – look for the roots of cells, one after the other.
* `Arena.callFinding` – a call, with every root looked for.

## Main results

* `Partition.Shows.callFinding_eq` – what such a call does is what the call does, with roots looked
  for afterwards.
* `Arena.exists_run_eq_run_callFinding` – a run of them is a run of calls, those of `find` put in.
* `Partition.Shows.run_callFinding` – a partition describes such a run too.
-/

namespace Strips

namespace Arena

/-! ### Operations that look for every root -/

/-- Look for the roots of cells, one after the other. -/
def findAll (a : Arena) (is : List Nat) : Arena := is.foldl (fun a i => (a.find i).2) a

/-- Go through cells up to the first that holds a value, and look for the root of each. -/
def findHolder (v : String) : Arena → List Nat → Bool × Arena
  | a, [] => (false, a)
  | a, i :: is =>
    let (r, a) := a.find i
    if a.value? r == some v then (true, a) else findHolder v a is

section

variable (order : List Nat → List Nat)

/-- `Arena.bind`, with the roots of distinct cells looked for. -/
def bindFinding (a : Arena) (i : Nat) (v : String) : Bool × Arena :=
  let (r, a) := a.find i
  match a.value? r with
  | some w => (w == v, a)
  | none =>
    let (excluded, a) := findHolder v a ((a.members r).flatMap fun m => order (a.partners m))
    if excluded then (false, a) else (true, a.modify r fun c => { c with value := some v })

/-- `Arena.linkWithin`, with the roots of distinct cells looked for. -/
def linkFinding (a : Arena) (i j : Nat) : Bool × Arena :=
  let (r, a) := a.find i
  let (s, a) := a.find j
  if r = s then (true, a)
  else if a.areDistinct r s then (false, a)
  else match a.value? r, a.value? s with
    | some v, some w => (v == w, a)
    | some v, none => a.bindFinding order j v
    | none, some w => a.bindFinding order i w
    | none, none => (true, if a.rank r < a.rank s then a.adopt s r else a.adopt r s)

/-- A call on an arena, with every root looked for. -/
def callFinding (a : Arena) : Call → Reply × Arena
  | .bind i (some v) => (.answer (a.bindFinding order i v).1, (a.bindFinding order i v).2)
  | .link i j =>
    if a.scope i = a.scope j then
      (.answer (a.linkFinding order i j).1, (a.linkFinding order i j).2)
    else (.refused .differentScopes, a)
  | .markDistinct i j =>
    if a.scope i ≠ a.scope j then (.refused .differentScopes, a)
    else
      let a := a.findAll [i, j]
      match a.markDistinct i j with
      | .ok b => (.done, b)
      | .error e => (.refused e, a)
  | c => a.call c

end

/-! ### Looking for roots -/

theorem Sound.findAll {a : Arena} (h : a.Sound) (is : List Nat) :
    a.Revalued a.value? (a.findAll is) := by
  induction is generalizing a with
  | nil => exact .refl h
  | cons i is ih =>
    have hfind := h.find i
    have hrest := ih hfind.sound
    rw [hfind.value?] at hrest
    exact hfind.trans hrest

/-- Looking for the roots of cells up to the first that holds a value tells whether there is one. -/
theorem Sound.findHolder {v : String} {a : Arena} (h : a.Sound) (is : List Nat) :
    ∃ js, (∀ j ∈ js, j ∈ is) ∧
      findHolder v a is = (is.any fun i => a.value? i == some v, a.findAll js) := by
  induction is generalizing a with
  | nil => exact ⟨[], fun _ hj => hj, rfl⟩
  | cons i is ih =>
    have hfind := h.find i
    have hvalue : (a.find i).2.value? (a.find i).1 = a.value? i := by
      rw [hfind.value?]
      exact h.value?_root i
    rw [Arena.findHolder, List.any_cons]
    dsimp only
    rw [hvalue]
    cases hv : a.value? i == some v with
    | true => exact ⟨[i], by simp, rfl⟩
    | false =>
      obtain ⟨js, hjs, hrest⟩ := ih hfind.sound
      rw [hfind.value?] at hrest
      exact ⟨i :: js, by grind, hrest⟩

/-! ### Changes of a cell that do not touch its way

A value or a mark may be set before or after ways are shortened.
-/

section

variable {f : Cell → Cell} (hf : ∀ c r, f { c with parent := r } = { f c with parent := r })

include hf

theorem parent_modify_of_comm (a : Arena) (k i : Nat) : (a.modify k f).parent i = a.parent i := by
  rw [parent, Arena.modify, List.getElem?_modify, parent]
  cases a.cells[i]? with
  | none => rfl
  | some c =>
    have hc := congrArg Cell.parent (hf c c.parent)
    split
    · exact hc
    · rfl

theorem modify_parent_comm (a : Arena) (k i r : Nat) :
    ((a.modify k f).modify i fun c => { c with parent := r }) =
      (a.modify i fun c => { c with parent := r }).modify k f := by
  simp only [modify_eq_mapCells, mapCells_mapCells]
  congr 1
  funext j c
  split <;> split <;> first | rfl | exact (hf c r).symm

theorem compress_modify {r : Nat} (fuel : Nat) (a : Arena) (k i : Nat) :
    (a.modify k f).compress r fuel i = (a.compress r fuel i).modify k f := by
  induction fuel generalizing a i with
  | zero => rfl
  | succ fuel ih =>
    rw [compress, compress, parent_modify_of_comm hf]
    split
    · rfl
    · rw [modify_parent_comm hf, ih]

theorem findAll_modify (a : Arena) (k : Nat) (is : List Nat) :
    (a.modify k f).findAll is = (a.findAll is).modify k f := by
  induction is generalizing a with
  | nil => rfl
  | cons i is ih =>
    have hroot : (a.modify k f).root i = a.root i := by
      rw [root, root, size_modify, climb_congr (parent_modify_of_comm hf a k)]
    have hfind : ((a.modify k f).find i).2 = (a.find i).2.modify k f := by
      rw [find, hroot, size_modify]
      exact compress_modify hf a.size a k i
    rw [findAll, List.foldl_cons, hfind]
    exact ih _

end

/-! ### One call -/

section

variable {order : List Nat → List Nat} (horder : ∀ l, (order l).Perm l)

include horder

/-- Binding looks for further roots after it has looked for that of its cell. -/
theorem Sound.bindFinding {a : Arena} (h : a.Sound) (i : Nat) (v : String) :
    ∃ is : List Nat, (∀ j ∈ is, j < a.size) ∧
      a.bindFinding order i v = ((a.bind i v).1, (a.bind i v).2.findAll is) := by
  have hfind := h.find i
  rw [Arena.bindFinding, Arena.bind]
  generalize a.find i = found at hfind ⊢
  obtain ⟨r, b⟩ := found
  dsimp only at hfind ⊢
  cases b.value? r with
  | some w => exact ⟨[], by simp, rfl⟩
  | none =>
    obtain ⟨js, hjs, hholder⟩ := hfind.sound.findHolder (v := v)
      ((b.members r).flatMap fun m => order (b.partners m))
    have hexcluded : ((b.members r).flatMap fun m => order (b.partners m)).any
        (fun p => b.value? p == some v) = b.isExcluded r v := by
      rw [isExcluded, List.any_flatMap]
      exact congrArg (List.any _) (funext fun m => (horder (b.partners m)).any_eq)
    have hlt : ∀ j ∈ js, j < a.size := by
      intro j hj
      obtain ⟨m, -, hmem⟩ := List.mem_flatMap.1 (hjs j hj)
      exact hfind.same.size ▸ hfind.sound.lt_of_mem_partners ((horder _).mem_iff.1 hmem)
    refine ⟨js, hlt, ?_⟩
    dsimp only
    rw [hholder, hexcluded]
    dsimp only
    cases b.isExcluded r v with
    | true => rfl
    | false =>
      exact congrArg (Prod.mk true) (findAll_modify (fun _ _ => rfl) b r js).symm

theorem Sound.linkFinding {a : Arena} (h : a.Sound) (i j : Nat) :
    ∃ is : List Nat, (∀ k ∈ is, k < a.size) ∧
      a.linkFinding order i j = ((a.linkWithin i j).1, (a.linkWithin i j).2.findAll is) := by
  have hfind := h.find i
  have hfind' := hfind.sound.find j
  have hsize := hfind'.same.size.trans hfind.same.size
  rw [Arena.linkFinding, Arena.linkWithin]
  generalize a.find i = found at hfind' hsize ⊢
  obtain ⟨r, b⟩ := found
  dsimp only at hfind' hsize ⊢
  generalize b.find j = found at hfind' hsize ⊢
  obtain ⟨s, c⟩ := found
  dsimp only at hfind' hsize ⊢
  rw [← hsize]
  -- whatever is decided, at most one cell is bound on the way
  split
  · exact ⟨[], by simp, rfl⟩
  split
  · exact ⟨[], by simp, rfl⟩
  cases c.value? r with
  | some v =>
    cases c.value? s with
    | some w => exact ⟨[], by simp, rfl⟩
    | none => exact hfind'.sound.bindFinding horder j v
  | none =>
    cases c.value? s with
    | some w => exact hfind'.sound.bindFinding horder i w
    | none => exact ⟨[], by simp, rfl⟩

end

theorem Sound.markFinding {a : Arena} (h : a.Sound) (i j : Nat) :
    (a.findAll [i, j]).markDistinct i j = (a.markDistinct i j).map (·.findAll [i, j]) := by
  have hsame := (h.findAll [i, j]).same
  rw [Arena.markDistinct, Arena.markDistinct, hsame.scope, hsame.root]
  split
  · rfl
  split
  · rfl
  · rw [Except.map, findAll_modify fun _ _ => rfl, findAll_modify fun _ _ => rfl]

end Arena

namespace Partition

open Arena

variable {order : List Nat → List Nat} (horder : ∀ l, (order l).Perm l)

include horder

/-- **One call** does what it does without looking for every root, but for roots that are looked for
afterwards. -/
theorem Shows.callFinding_eq {p : Partition} {a : Arena} (h : p.Shows a) (c : Call)
    (hc : ∀ i ∈ c.cells, i < a.size) :
    ∃ is : List Nat, (∀ i ∈ is, i < a.size) ∧
      a.callFinding order c = ((a.call c).1, (a.call c).2.findAll is) := by
  cases c with
  | newCell v scope => exact ⟨[], by simp, rfl⟩
  | clear i => exact ⟨[], by simp, rfl⟩
  | clearAll scope => exact ⟨[], by simp, rfl⟩
  | find i => exact ⟨[], by simp, rfl⟩
  | bind i v =>
    cases v with
    | none => exact ⟨[], by simp, rfl⟩
    | some v =>
      obtain ⟨is, his, hbind⟩ := h.sound.bindFinding horder i v
      exact ⟨is, his, by rw [callFinding, hbind]; rfl⟩
  | link i j =>
    rw [callFinding, Arena.call, Arena.link]
    split
    · obtain ⟨is, his, hlink⟩ := h.sound.linkFinding horder i j
      exact ⟨is, his, by rw [hlink]⟩
    · exact ⟨[], by simp, rfl⟩
  | markDistinct i j =>
    rw [callFinding, Arena.call]
    split
    · rename_i hscope
      refine ⟨[], by simp, ?_⟩
      rw [Arena.markDistinct, if_pos hscope]
      rfl
    · refine ⟨[i, j], by simpa [Call.cells] using hc, ?_⟩
      dsimp only
      rw [h.sound.markFinding]
      cases a.markDistinct i j <;> rfl

end Partition

/-! ### A run of calls -/

namespace Arena

namespace Call

/-- Whether a call only looks for a root. -/
def isFind : Call → Bool
  | .find _ => true
  | _ => false

/-- Calls with their replies, those that only look for a root left out. -/
def told (calls : List Call) (replies : List Reply) : List (Call × Reply) :=
  (calls.zip replies).filter fun x => !x.1.isFind

/-- Calls that look for roots are valid before any valid calls, and are not told of. -/
theorem valid_find_append {n : Nat} : ∀ {is : List Nat} {calls : List Call},
    (∀ i ∈ is, i < n) → Valid n calls → Valid n (is.map find ++ calls)
  | [], _, _, h => h
  | i :: is, _, his, h =>
    ⟨by simpa [cells] using his i List.mem_cons_self,
      valid_find_append (fun j hj => his j (List.mem_cons_of_mem _ hj)) h⟩

theorem run_find_append (calls : List Call) : ∀ (is : List Nat) (a : Arena),
    (run call a (is.map find ++ calls)).2 = (run call (a.findAll is) calls).2 ∧
      told (is.map find ++ calls) (run call a (is.map find ++ calls)).1 =
        told calls (run call (a.findAll is) calls).1
  | [], _ => ⟨rfl, rfl⟩
  | i :: is, a => run_find_append calls is (a.find i).2

end Call

end Arena

namespace Partition

open Arena

variable {order : List Nat → List Nat} (horder : ∀ l, (order l).Perm l)

include horder

/-- **A partition describes a run of calls with every root looked for**, and the replies are those
of the partition. -/
theorem Shows.run_callFinding : ∀ {calls : List Call} {p : Partition} {a : Arena}, p.Shows a →
    Call.Valid a.size calls →
    (Call.run Partition.call p calls).1 = (Call.run (callFinding order) a calls).1 ∧
      (Call.run Partition.call p calls).2.Shows (Call.run (callFinding order) a calls).2
  | [], _, _, h, _ => ⟨rfl, h⟩
  | c :: calls, p, a, h, hvalid => by
    obtain ⟨is, -, hcall⟩ := h.callFinding_eq horder c hvalid.1
    obtain ⟨hreply, hshows⟩ := h.call c hvalid.1
    have hfound := hshows.unchanged (hshows.sound.findAll is)
    have hsize := (hshows.sound.findAll is).same.size.trans (h.size_call c hvalid.1)
    obtain ⟨hreplies, hlast⟩ := hfound.run_callFinding (hsize ▸ hvalid.2)
    simp only [Call.run, hcall]
    exact ⟨congrArg₂ List.cons hreply hreplies, hlast⟩

/-- A run of calls with every root looked for is a run of calls, with calls of `find` put in. -/
theorem Shows.exists_run_eq : ∀ {calls : List Call} {p : Partition} {a : Arena}, p.Shows a →
    Call.Valid a.size calls → ∃ calls', Call.Valid a.size calls' ∧
      (Call.run Arena.call a calls').2 = (Call.run (callFinding order) a calls).2 ∧
      Call.told calls' (Call.run Arena.call a calls').1 =
        Call.told calls (Call.run (callFinding order) a calls).1
  | [], _, _, _, _ => ⟨[], trivial, rfl, rfl⟩
  | c :: calls, p, a, h, hvalid => by
    obtain ⟨is, his, hcall⟩ := h.callFinding_eq horder c hvalid.1
    have hshows := (h.call c hvalid.1).2
    have hfound := hshows.unchanged (hshows.sound.findAll is)
    have hcalled := h.size_call c hvalid.1
    have hsize := (hshows.sound.findAll is).same.size
    obtain ⟨rest, hrest, hlast, htold⟩ :=
      hfound.exists_run_eq (hsize.trans hcalled ▸ hvalid.2 : Call.Valid _ calls)
    obtain ⟨hlast', htold'⟩ := Call.run_find_append rest is (a.call c).2
    refine ⟨c :: (is.map .find ++ rest), ⟨hvalid.1, ?_⟩, ?_, ?_⟩
    · rw [← hcalled]
      exact Call.valid_find_append (fun i hi => hcalled ▸ Nat.lt_add_right _ (his i hi))
        (hsize ▸ hrest)
    · simp only [Call.run, hcall]
      exact hlast'.trans hlast
    · simp only [Call.run, hcall, Call.told, List.zip_cons_cons, List.filter_cons]
      exact congrArg (fun l => if !c.isFind then (c, (a.call c).1) :: l else l)
        (htold'.trans htold)

end Partition

namespace Arena

/-- **The arenas that come up when every root is looked for** are those of runs of calls. Such a run
from the empty arena on is a run of calls, with calls of `find` put in and the same replies
otherwise, and what can be seen of the arena is the partition. -/
theorem exists_run_eq_run_callFinding {order : List Nat → List Nat}
    (horder : ∀ l, (order l).Perm l) {calls : List Call} (hcalls : Call.Valid 0 calls) :
    (∃ calls', Call.Valid 0 calls' ∧
      (Call.run call empty calls').2 = (Call.run (callFinding order) empty calls).2 ∧
      Call.told calls' (Call.run call empty calls').1 =
        Call.told calls (Call.run (callFinding order) empty calls).1) ∧
      (Call.run (callFinding order) empty calls).1 = (Call.run Partition.call {} calls).1 ∧
      (Call.run Partition.call {} calls).2.Shows (Call.run (callFinding order) empty calls).2 := by
  obtain ⟨hreplies, hshows⟩ := Partition.shows_empty.run_callFinding horder hcalls
  exact ⟨Partition.shows_empty.exists_run_eq horder hcalls, hreplies.symm, hshows⟩

end Arena

end Strips
