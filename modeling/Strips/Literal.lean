import Strips.Arena
import Strips.Fact

/-!
# Literals

A literal is a predicate name with terms, each a constant or a cell of an arena. What a literal
says depends on the values of its cells: `resolve` puts the values in, and two literals are the same
when they resolve to equal ones.

## Main definitions

* `Literal.same`, `Literal.compare` – equality and order under an arena.
* `Literal.fact?` – the fact that a literal says, if all its cells are bound.
* `Literal.unify` – bind the cells of a literal so that it says a given fact.
-/

namespace Strips

/-- A constant, or a cell of an arena. -/
inductive Term where
  | const (value : String)
  | cell (index : Nat)
  deriving DecidableEq, Repr, Inhabited

namespace Term

/-- The value of a term. -/
def value? (arena : Arena) : Term → Option String
  | const value => some value
  | cell i => arena.value? i

/-- Whether the value of a term can never change. -/
def isConstant (arena : Arena) : Term → Bool
  | const _ => true
  | cell i => arena.isConstant i

/-- The value of a term, or the root of its class. -/
def resolve (arena : Arena) (t : Term) : Term :=
  match t with
  | const value => const value
  | cell i => match arena.value? i with
    | some value => const value
    | none => cell (arena.root i)

/-- Take the value of a term away, unless it is a constant. -/
def clear (arena : Arena) : Term → Arena
  | const _ => arena
  | cell i => arena.clear i

/-- The term in an arena in which its cell comes after `offset` others. -/
def shift (offset : Nat) : Term → Term
  | const value => const value
  | cell i => cell (i + offset)

/-- The text of a value that may be missing. -/
def valueText : Option String → String
  | some value => value
  | none => "$unbound"

end Term

/-- A name with values, each of which may be missing. -/
abbrev ValueKey : Type := String × List (Option String)

/-- A name with terms. -/
structure Literal where
  name : String
  terms : List Term := []
  deriving DecidableEq, Repr, Inhabited

/-- The fact, as a literal. -/
def Fact.literal (f : Fact) : Literal := ⟨f.name, f.arguments.map .const⟩

namespace Literal

/-- The number of terms. -/
def arity (l : Literal) : Nat := l.terms.length

/-- The values of the terms. -/
def values (arena : Arena) (l : Literal) : List (Option String) := l.terms.map (·.value? arena)

/-- The name and the values of a literal. -/
def key (arena : Arena) (l : Literal) : ValueKey := (l.name, l.values arena)

/-- Whether every term has a value. -/
def isGround (arena : Arena) (l : Literal) : Bool := l.terms.all fun t => (t.value? arena).isSome

/-- Whether every term is a constant. -/
def isConstant (arena : Arena) (l : Literal) : Bool := l.terms.all (·.isConstant arena)

/-- The literal with the values of its bound terms put in. -/
def resolve (arena : Arena) (l : Literal) : Literal := ⟨l.name, l.terms.map (·.resolve arena)⟩

/-- Whether two literals have one name, one arity and, term by term, one value or one class. -/
def same (arena : Arena) (l m : Literal) : Bool := l.resolve arena == m.resolve arena

/-- The cells of a literal that are no constants, each once. -/
def freeCells (arena : Arena) (l : Literal) : List Nat :=
  (l.terms.filterMap fun t =>
    match t with
    | .const _ => none
    | .cell i => if arena.isConstant i then none else some i).eraseDups

/-- The printed form of a literal. -/
def text (arena : Arena) (l : Literal) : String :=
  callText l.name ((l.values arena).map Term.valueText)

/-- The fact that a literal says, if every term has a value. -/
def fact? (arena : Arena) (l : Literal) : Option Fact :=
  ((l.values arena).mapM id).map fun arguments => ⟨l.name, arguments⟩

/-- The fact that has the printed form of the literal: an unbound term is shown as it is printed. -/
def shown (arena : Arena) (l : Literal) : Fact := ⟨l.name, (l.values arena).map Term.valueText⟩

/-- The message about a literal, printed, that says no fact. -/
def openMessage (text : String) : String := s!"Cannot clone non-ground predicate {text}"

/-- The literal in an arena in which its cells come after `offset` others. -/
def shift (offset : Nat) (l : Literal) : Literal := ⟨l.name, l.terms.map (Term.shift offset)⟩

/-- Take the values of all cells of a literal away. -/
def clear (arena : Arena) (l : Literal) : Arena := l.terms.foldl Term.clear arena

/-! ### Order -/

/-- Order of values: a missing value comes first, then strings by code point. -/
def compareValue : Option String → Option String → Ordering
  | none, none => .eq
  | none, some _ => .lt
  | some _, none => .gt
  | some v, some w => if v = w then .eq else if v < w then .lt else .gt

/-- Lexicographic order of value lists; a proper initial part comes first. -/
def compareValues : List (Option String) → List (Option String) → Ordering
  | [], [] => .eq
  | [], _ :: _ => .lt
  | _ :: _, [] => .gt
  | v :: vs, w :: ws => (compareValue v w).then (compareValues vs ws)

/-- Order of literals under an arena: by name, then by values. -/
def compare (arena : Arena) (l m : Literal) : Ordering :=
  (compareValue (some l.name) (some m.name)).then
    (compareValues (l.values arena) (m.values arena))

/-! ### Unification -/

/-- How an attempt to unify ends. -/
inductive Match where
  /-- The literal says the fact now; the cells that this attempt bound, in order. -/
  | matched (bound : List Nat)
  /-- The literal cannot say the fact. -/
  | failed
  /-- The other literal has an unbound term, and is printed in this form. -/
  | notGround (text : String)
  deriving DecidableEq, Repr

/-- The message about a literal that should have been ground. -/
def notGroundMessage (text : String) : String := s!"Cannot unify with non-ground predicate {text}"

/-- Unify term by term. The cells in `bound` were bound by this attempt, the last one first, and are
cleared when a later term fails. -/
def unifyTerms (target : Literal) (bound : List Nat) (arena : Arena) :
    List (Term × Term) → Match × Arena
  | [] => (.matched bound.reverse, arena)
  | (t, source) :: rest =>
    match source.value? arena with
    | none => (.notGround (target.text arena), arena)
    | some wanted =>
      let undo := fun (arena : Arena) => (Match.failed, bound.foldr (fun i a => a.clear i) arena)
      match t.value? arena, t with
      | some value, _ => if value = wanted then unifyTerms target bound arena rest else undo arena
      | none, .cell i =>
        let (accepted, arena) := arena.bind i wanted
        if accepted then unifyTerms target (i :: bound) arena rest else undo arena
      | none, .const _ => undo arena

/-- Bind the unbound cells of `l` so that it says what `target` says. If that cannot be done, what
the attempt bound is unbound again; a term of `target` without a value ends the attempt where it
stands. -/
def unify (arena : Arena) (l target : Literal) : Match × Arena :=
  if l.name = target.name && l.arity = target.arity then
    unifyTerms target [] arena (l.terms.zip target.terms)
  else (.failed, arena)

end Literal

end Strips
