import Strips.Literal

/-!
# Sets of literals

A set of literals keeps the order of insertion and holds no literal that is the same as another one
at the time when it is added. What counts as the same is decided under an arena at the time of each
question, because the values of cells change.

## Main definitions

* `LiteralSet.find?`, `insert`, `remove?`, `discard`, `named` – the operations.
* `LiteralSet.compare` – order by members, in the order of insertion.
-/

namespace Strips

/-- Literals in the order of insertion. -/
structure LiteralSet where
  members : List Literal := []
  deriving DecidableEq, Repr, Inhabited

namespace LiteralSet

/-- The member that is the same as a literal. Constant members are looked at before the others. -/
def find? (arena : Arena) (s : LiteralSet) (l : Literal) : Option Literal :=
  ((s.members.filter (·.isConstant arena)).find? (·.same arena l)).or
    ((s.members.filter fun m => !m.isConstant arena).find? (·.same arena l))

/-- Whether a member is the same as a literal. -/
def contains (arena : Arena) (s : LiteralSet) (l : Literal) : Bool := (s.find? arena l).isSome

/-- Add a literal at the end, unless a member is the same. -/
def insert (arena : Arena) (s : LiteralSet) (l : Literal) : LiteralSet :=
  if s.contains arena l then s else ⟨s.members ++ [l]⟩

/-- Add literals one after the other. -/
def insertMany (arena : Arena) (s : LiteralSet) (ls : List Literal) : LiteralSet :=
  ls.foldl (insert arena) s

/-- The set of the literals of a list. -/
def ofList (arena : Arena) (ls : List Literal) : LiteralSet := ({} : LiteralSet).insertMany arena ls

/-- Remove the member that is the same as a literal, if there is one. -/
def remove? (arena : Arena) (s : LiteralSet) (l : Literal) : Option LiteralSet :=
  (s.find? arena l).map fun m => ⟨s.members.erase m⟩

/-- Remove the member that is the same as a literal, or nothing. -/
def discard (arena : Arena) (s : LiteralSet) (l : Literal) : LiteralSet :=
  (s.remove? arena l).getD s

/-- Whether every literal of a list is the same as some member. -/
def containsAll (arena : Arena) (s : LiteralSet) (ls : List Literal) : Bool :=
  ls.all (s.contains arena)

/-- The members with a name. -/
def named (s : LiteralSet) (name : String) : List Literal := s.members.filter (·.name == name)

/-- Whether every member is ground. -/
def isGround (arena : Arena) (s : LiteralSet) : Bool := s.members.all (·.isGround arena)

/-- Take the values of all cells of all members away. -/
def clear (arena : Arena) (s : LiteralSet) : Arena := s.members.foldl Literal.clear arena

/-- The variables of all members, each once. -/
def freeCells (arena : Arena) (s : LiteralSet) : List Nat :=
  (s.members.flatMap (·.freeCells arena)).eraseDups

/-- The printed form of a set. -/
def text (arena : Arena) (s : LiteralSet) : String :=
  ",".intercalate (s.members.map (·.text arena))

/-- Whether two sets have the same members, in whatever order. -/
def sameMembers (arena : Arena) (s t : LiteralSet) : Bool :=
  s.members.length == t.members.length && s.containsAll arena t.members

/-- Lexicographic order of literal lists. -/
def compareMembers (arena : Arena) : List Literal → List Literal → Ordering
  | [], [] => .eq
  | [], _ :: _ => .lt
  | _ :: _, [] => .gt
  | l :: ls, m :: ms => (l.compare arena m).then (compareMembers arena ls ms)

/-- Order of sets: the first members that differ decide, and a proper initial part comes first. -/
def compare (arena : Arena) (s t : LiteralSet) : Ordering :=
  compareMembers arena s.members t.members

end LiteralSet

end Strips
