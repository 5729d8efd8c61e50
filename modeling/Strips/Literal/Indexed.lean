import Strips.Literal.Set

/-!
# Sets of literals with indices

A set that is asked often keeps, besides its members in the order of insertion, three things by
which they are found: the constant members under their values, the other members, called
*templates*, in a list that is gone through, and all members by name. The values of templates change
behind the back of the set, so they are not looked up, but compared at the time of each question.

A member is taken out as it is written, cell by cell. Two literals with the same cells are the same
at any time, so a set never holds two of them.

## Main definitions

* `IndexedSet.find?`, `insert`, `remove?`, `discard`, `named` – the operations.
* `IndexedSet.plain` – the members without the indices.
-/

namespace Strips

/-- Literals in the order of insertion, and what they are found by. -/
structure IndexedSet where
  items : List Literal := []
  /-- The constant members under their values. -/
  index : List (ValueKey × Literal) := []
  /-- The other members. -/
  templates : List Literal := []
  /-- The members by name. A name stays when its last member is removed. -/
  byName : List (String × List Literal) := []
  deriving DecidableEq, Repr, Inhabited

namespace IndexedSet

/-- The members without the indices. -/
def plain (s : IndexedSet) : LiteralSet := ⟨s.items⟩

/-! ### Indices -/

/-- Put a literal under a key, in place of the one that is there. -/
def putKey (key : ValueKey) (l : Literal) :
    List (ValueKey × Literal) → List (ValueKey × Literal)
  | [] => [(key, l)]
  | (k, m) :: rest => if k = key then (key, l) :: rest else (k, m) :: putKey key l rest

/-- Take a key out. -/
def dropKey (key : ValueKey) (index : List (ValueKey × Literal)) : List (ValueKey × Literal) :=
  index.filter (·.1 != key)

/-- Change the list that stands under a name. -/
def updateName (name : String) (f : List Literal → List Literal) :
    List (String × List Literal) → List (String × List Literal)
  | [] => [(name, f [])]
  | (n, ls) :: rest =>
    if n = name then (n, f ls) :: rest else (n, ls) :: updateName name f rest

/-! ### Operations -/

/-- The member that is the same as a literal. A ground literal is looked up among the constant
members first. -/
def find? (arena : Arena) (s : IndexedSet) (l : Literal) : Option Literal :=
  (if l.isGround arena then s.index.lookup (l.key arena) else none).or
    (s.templates.find? (·.same arena l))

/-- Whether a member is the same as a literal. -/
def contains (arena : Arena) (s : IndexedSet) (l : Literal) : Bool := (s.find? arena l).isSome

/-- Add a literal that no member is the same as. -/
def push (arena : Arena) (s : IndexedSet) (l : Literal) : IndexedSet where
  items := s.items ++ [l]
  index := if l.isConstant arena then putKey (l.key arena) l s.index else s.index
  templates := if l.isConstant arena then s.templates else s.templates ++ [l]
  byName := updateName l.name (· ++ [l]) s.byName

/-- Add a literal at the end, unless a member is the same. -/
def insert (arena : Arena) (s : IndexedSet) (l : Literal) : IndexedSet :=
  if s.contains arena l then s else s.push arena l

/-- Add literals one after the other. -/
def insertMany (arena : Arena) (s : IndexedSet) (ls : List Literal) : IndexedSet :=
  ls.foldl (insert arena) s

/-- The set of the literals of a list. -/
def ofList (arena : Arena) (ls : List Literal) : IndexedSet :=
  ({} : IndexedSet).insertMany arena ls

/-- Take a member out. -/
def erase (arena : Arena) (s : IndexedSet) (m : Literal) : IndexedSet where
  items := s.items.erase m
  index := if s.templates.contains m then s.index else dropKey (m.key arena) s.index
  templates := s.templates.erase m
  byName := updateName m.name (·.erase m) s.byName

/-- Remove the member that is the same as a literal, if there is one. -/
def remove? (arena : Arena) (s : IndexedSet) (l : Literal) : Option IndexedSet :=
  (s.find? arena l).map (s.erase arena)

/-- Remove the member that is the same as a literal, or nothing. -/
def discard (arena : Arena) (s : IndexedSet) (l : Literal) : IndexedSet :=
  (s.remove? arena l).getD s

/-- Whether every literal of a list is the same as some member. -/
def containsAll (arena : Arena) (s : IndexedSet) (ls : List Literal) : Bool :=
  ls.all (s.contains arena)

/-- The members with a name. -/
def named (s : IndexedSet) (name : String) : List Literal := (s.byName.lookup name).getD []

/-- Whether two sets have the same members, in whatever order. -/
def sameMembers (arena : Arena) (s t : IndexedSet) : Bool :=
  s.items.length == t.items.length && s.containsAll arena t.items

end IndexedSet

end Strips
