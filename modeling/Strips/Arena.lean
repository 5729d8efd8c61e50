/-!
# Binding cells

Variables and constants of a problem text are *cells* of an *arena*. Linked cells form a class, and
a class has at most one value. Two cells may be marked distinct, after which neither may take a
value that the other holds. A constant cell holds its value for ever.

Classes are kept as a forest: each cell has a parent, a root is its own parent, and what belongs to
a whole class – the value and the list of its members – stands at the root. Two classes are merged
by rank, and looking for a root shortens the way to it.

One arena may hold the cells of several *scopes*. A scope is one statement of a problem text; cells
of different scopes cannot be linked or marked.

## Main definitions

* `Arena.newCell`, `Arena.bind`, `Arena.link`, `Arena.clear`, `Arena.clearAll`,
  `Arena.markDistinct` – what changes an arena.
* `Arena.find` – the root of a cell, with the shortened ways.
* `Arena.root`, `Arena.value?`, `Arena.members`, `Arena.areDistinct` – what can be seen of it.

Reading a cell that was never made gives a lone unbound cell, so every function is total.
-/

namespace Strips

/-- One cell. The value and the members are those of the class, and are kept at its root only. -/
structure Cell where
  /-- The statement that the cell belongs to. -/
  scope : Nat := 0
  /-- The next cell on the way to the root; a root is its own parent. -/
  parent : Nat
  /-- Bound on the length of the ways that end here, when this is a root. -/
  rank : Nat := 0
  /-- The value of the class. -/
  value : Option String := none
  /-- Whether the cell was made with a value, which it never loses. -/
  constant : Bool := false
  /-- The cells that this one was marked distinct from. -/
  partners : List Nat := []
  /-- The cells of the class, in the order in which they joined. -/
  members : List Nat
  deriving DecidableEq, Repr

/-- The cells made so far; a cell is known by its place. -/
structure Arena where
  cells : List Cell := []
  deriving DecidableEq, Repr, Inhabited

/-- Why an operation on cells is refused. -/
inductive BindingError where
  /-- A cell can be cleared, but not bound to no value. -/
  | noValue
  /-- The cells belong to different scopes. -/
  | differentScopes
  /-- A cell cannot be distinct from one of its own class. -/
  | distinctFromItself
  deriving DecidableEq, Repr

/-- The message of a refused operation. -/
def BindingError.message : BindingError → String
  | noValue => "Cannot bind a cell to None; use clear() instead"
  | differentScopes => "Bindings from different arenas cannot be related"
  | distinctFromItself => "A binding cannot be distinct from itself or a linked binding"

namespace Arena

/-- The arena without cells. -/
def empty : Arena := {}

/-- The number of cells. -/
def size (a : Arena) : Nat := a.cells.length

/-- Change one cell. -/
def modify (a : Arena) (i : Nat) (f : Cell → Cell) : Arena := ⟨a.cells.modify i f⟩

/-- The scope of a cell. -/
def scope (a : Arena) (i : Nat) : Nat := (a.cells[i]?.map Cell.scope).getD 0

/-- Whether a cell was made with a value. -/
def isConstant (a : Arena) (i : Nat) : Bool := (a.cells[i]?.map Cell.constant).getD false

/-- The cells that were marked distinct from `i` itself. -/
def partners (a : Arena) (i : Nat) : List Nat := (a.cells[i]?.map Cell.partners).getD []

/-- The next cell on the way to the root. -/
def parent (a : Arena) (i : Nat) : Nat := (a.cells[i]?.map Cell.parent).getD i

/-- The rank of a cell. -/
def rank (a : Arena) (i : Nat) : Nat := (a.cells[i]?.map Cell.rank).getD 0

/-! ### Roots -/

/-- Follow parents for at most `fuel` steps. -/
def climb (a : Arena) : Nat → Nat → Nat
  | 0, i => i
  | fuel + 1, i => if a.parent i = i then i else climb a fuel (a.parent i)

/-- The root of the class of a cell. A way visits no cell twice, so the number of cells bounds
it. -/
def root (a : Arena) (i : Nat) : Nat := a.climb a.size i

/-- Point the cells on the way from `i` straight at the root `r`. -/
def compress (a : Arena) (r : Nat) : Nat → Nat → Arena
  | 0, _ => a
  | fuel + 1, i =>
    if a.parent i = r then a
    else (a.modify i fun c => { c with parent := r }).compress r fuel (a.parent i)

/-- The root of a cell, and the arena with the way to it shortened. -/
def find (a : Arena) (i : Nat) : Nat × Arena := (a.root i, a.compress (a.root i) a.size i)

/-! ### What can be seen -/

/-- The value of the class of a cell. -/
def value? (a : Arena) (i : Nat) : Option String := a.cells[a.root i]?.bind Cell.value

/-- The cells of the class of a cell, in the order in which they joined. -/
def members (a : Arena) (i : Nat) : List Nat :=
  (a.cells[a.root i]?.map Cell.members).getD [i]

/-- Whether a member of one class is marked distinct from a member of the other. -/
def areDistinct (a : Arena) (i j : Nat) : Bool :=
  a.scope i == a.scope j &&
    (a.members i).any fun m => (a.partners m).any fun p => (a.members j).contains p

/-- Whether two cells hold the same value, or are both unbound and linked. -/
def same (a : Arena) (i j : Nat) : Bool :=
  match a.value? i, a.value? j with
  | none, none => a.root i == a.root j
  | v, w => v == w

/-- The place of a cell among the cells of its scope. -/
def localIndex (a : Arena) (i : Nat) : Nat :=
  ((a.cells.take i).filter fun c => c.scope == a.scope i).length

/-- The number of cells of a scope. -/
def scopeSize (a : Arena) (scope : Nat) : Nat :=
  (a.cells.filter fun c => c.scope == scope).length

/-! ### What changes an arena -/

/-- A new cell: a constant if a value is given, else unbound. -/
def newCell (a : Arena) (value : Option String := none) (scope : Nat := 0) : Nat × Arena :=
  let i := a.size
  let cell : Cell := ⟨scope, i, 0, value, value.isSome, [], [i]⟩
  (i, ⟨a.cells ++ [cell]⟩)

/-- Whether a cell distinct from a member of the class of `i` holds `value`. The roots of these
cells are only read off; looking for them would shorten ways, and nothing else. -/
def isExcluded (a : Arena) (i : Nat) (value : String) : Bool :=
  (a.members i).any fun m => (a.partners m).any fun p => a.value? p == some value

/-- Bind the class of a cell. A bound class accepts only the value that it has, and an unbound one
no value that a distinct cell holds; a refusal changes no value. -/
def bind (a : Arena) (i : Nat) (value : String) : Bool × Arena :=
  let (r, a) := a.find i
  match a.value? r with
  | some current => (current == value, a)
  | none =>
    if a.isExcluded r value then (false, a)
    else (true, a.modify r fun c => { c with value := some value })

/-- Make the root `s` a child of the root `r`. -/
def adopt (a : Arena) (r s : Nat) : Arena :=
  let joining := a.members s
  let tie := a.rank r == a.rank s
  let a := a.modify s fun c => { c with parent := r, members := [] }
  a.modify r fun c =>
    { c with members := c.members ++ joining, rank := if tie then c.rank + 1 else c.rank }

/-- Link two cells of one scope. Linking a bound class to an unbound one binds the latter, and two
bound classes are never merged; otherwise the class of lower rank joins the other. -/
def linkWithin (a : Arena) (i j : Nat) : Bool × Arena :=
  let (r, a) := a.find i
  let (s, a) := a.find j
  if r = s then (true, a)
  else if a.areDistinct r s then (false, a)
  else match a.value? r, a.value? s with
    | some v, some w => (v == w, a)
    | some v, none => a.bind j v
    | none, some w => a.bind i w
    | none, none => (true, if a.rank r < a.rank s then a.adopt s r else a.adopt r s)

/-- Link two cells, so that they share one value. -/
def link (a : Arena) (i j : Nat) : Except BindingError (Bool × Arena) :=
  if a.scope i = a.scope j then .ok (a.linkWithin i j) else .error .differentScopes

/-- Take the value of a class away, unless the cell is a constant. -/
def clear (a : Arena) (i : Nat) : Arena :=
  if a.isConstant i then a
  else
    let (r, a) := a.find i
    a.modify r fun c => { c with value := none }

/-- Take the values of all classes of a scope away, constants left alone. -/
def clearAll (a : Arena) (scope : Nat := 0) : Arena :=
  ⟨a.cells.map fun c =>
    if c.scope == scope && !c.constant then { c with value := none } else c⟩

/-- Mark two cells distinct. Their roots are only read off, too. -/
def markDistinct (a : Arena) (i j : Nat) : Except BindingError Arena :=
  if a.scope i ≠ a.scope j then .error .differentScopes
  else if a.root i = a.root j then .error .distinctFromItself
  else
    let a := a.modify i fun c => { c with partners := c.partners.insert j }
    .ok (a.modify j fun c => { c with partners := c.partners.insert i })

/-- The disjoint union of two arenas: the cells of `b` come after those of `a`, in scopes of their
own from `scope` on. -/
def append (a b : Arena) (scope : Nat) : Arena :=
  let shift := (· + a.size)
  ⟨a.cells ++ b.cells.map fun c =>
    { c with
      scope := c.scope + scope
      parent := shift c.parent
      partners := c.partners.map shift
      members := c.members.map shift }⟩

end Arena

end Strips
