import Strips.Graph.Report
import Strips.Graph.Solve
import Strips.Literal.Indexed
import Strips.Plan

/-!
# Workbenches

A workbench holds objects that are changed piece by piece: sets of literals, actions, files of
actions, layers, levels and graphs. They share one arena, so that binding a cell changes what every
object with this cell says. An object is known by its handle, and objects refer to each other by
handles: a layer to its actions, a level to its layers, a graph to its schemas and levels.

## Marks

Literals and actions stay what they are when they are put into another object; nothing is copied.
Where something can be looked up – the literal under which actions are filed, the pairs that exclude
each other – it is kept with its *mark*, the value that it had when it was put there. It is found
by what has the same mark and is the same now, so a literal whose cells have changed since is not
found before they have changed back.

## Main definitions

* `Item`, `Workbench` – the objects.
* `Workbench.same`, `Workbench.mark` – how objects are compared and looked up at a moment.
* `Bench` – operations on a workbench; a failed one keeps what it has changed before.
-/

namespace Strips

/-- The number of an object. -/
abbrev Handle : Type := Nat

/-- What a collection may hold: literals, or objects. -/
inductive Member where
  | literal (literal : Literal)
  | object (handle : Handle)
  deriving Repr

/-- The value under which something is looked up. -/
inductive Mark where
  | literal (key : ValueKey)
  /-- An instance is looked up by its key. -/
  | key (key : ActionKey)
  | object (handle : Handle)
  deriving Repr

/-- Whether two marks stand for the same value. -/
def Mark.same : Mark → Mark → Bool
  | .literal k, .literal l => k == l
  | .key k, .key l => k.same l
  | .object h, .object i => h == i
  | _, _ => false

/-- A member with the mark that it had when it was noted. -/
structure Noted where
  member : Member
  mark : Mark
  deriving Repr

/-- Two members that exclude each other, or one that excludes itself. -/
abbrev Exclusion : Type := List Noted

/-- The pairs of members of a layer that exclude each other. -/
structure Exclusions where
  /-- The pairs, the newest first. -/
  pairs : List Exclusion := []
  /-- For each mark the pairs in which it stands. -/
  rows : List (Mark × List Exclusion) := []
  deriving Repr

/-- Actions filed under a literal. -/
structure Filing where
  literal : Literal
  /-- What the literal said when it was filed. -/
  key : ValueKey
  actions : List Handle
  deriving Repr

/-- Actions filed under literals, and instances in the order in which they were found. -/
structure FileItem where
  filings : List Filing := []
  /-- Instances with the keys that they had when they were found. -/
  instances : List (ActionKey × Handle) := []
  deriving Repr

/-- A level of which the layers and the file of supporting actions are objects. -/
structure LevelItem where
  facts : Handle
  actions : Option Handle
  support : Handle
  noGoods : List LiteralSet := []
  deriving Repr

/-- A graph of which the schemas and the levels are objects. -/
structure GraphItem where
  strict : Bool
  budget : Nat
  schemas : List Handle := []
  goals : LiteralSet := {}
  /-- The levels, the initial one first. -/
  levels : List Handle := []
  fixedPoint : Option Nat := none
  goalsReachable : Bool := false
  attempts : Nat := 0
  deriving Repr

/-- An object. -/
inductive Item where
  | set (members : IndexedSet)
  | action (action : Action)
  | actionList (members : List Handle)
  | file (file : FileItem)
  | relation (pairs : PairRelation String)
  | factLayer (facts : LiteralSet) (mutexes : Exclusions)
  | actionLayer (actions : List Handle) (mutexes : Exclusions)
  | level (level : LevelItem)
  | graph (graph : GraphItem)
  /-- A problem; its parts are objects of their own. -/
  | problem

/-- Objects and the arena that they share. -/
structure Workbench where
  arena : Arena := .empty
  /-- The number of scopes of the arena that are in use. -/
  scopes : Nat := 0
  items : Array Item := #[]

/-- A literal with what it says at a moment. -/
structure Saying where
  literal : Literal
  resolved : Literal
  deriving Repr

instance : BEq Saying := ⟨fun x y => x.resolved == y.resolved⟩

/-- An action object as it is at a moment. -/
structure Actor where
  handle : Handle
  action : Action
  deriving Repr

/-- One object is the same action as itself, and two are if they are instances with one key. -/
instance : BEq Actor := ⟨fun x y => x.handle == y.handle || x.action.sameInstance y.action⟩

/-! ### What can be seen at a moment -/

namespace Workbench

/-- The action of a handle. -/
def actor? (b : Workbench) (handle : Handle) : Option Actor :=
  match b.items[handle]? with
  | some (.action action) => some ⟨handle, action⟩
  | _ => none

/-- The actions among the objects of a list. -/
def actors (b : Workbench) (handles : List Handle) : List Actor := handles.filterMap b.actor?

/-- A literal with what it says now. -/
def saying (b : Workbench) (l : Literal) : Saying := ⟨l, l.resolve b.arena⟩

/-- The literals of a set with what they say now. -/
def sayings (b : Workbench) (s : LiteralSet) : List Saying := s.members.map b.saying

/-- Whether two literals or two actions are the same now. -/
def same (b : Workbench) : Member → Member → Bool
  | .literal l, .literal m => l.same b.arena m
  | .object h, .object i =>
    h == i || match b.actor? h, b.actor? i with
      | some x, some y => x == y
      | _, _ => false
  | _, _ => false

/-- The mark of a member now. -/
def mark (b : Workbench) : Member → Mark
  | .literal l => .literal (l.key b.arena)
  | .object h =>
    match (b.actor? h).bind (·.action.key) with
    | some key => .key key
    | none => .object h

/-- The printed form of a literal or of an action. -/
def text (b : Workbench) : Member → String
  | .literal l => l.text b.arena
  | .object h => ((b.actor? h).map (·.action.text b.arena)).getD ""

end Workbench

/-! ### Operations -/

/-- Why an operation on a workbench fails. -/
inductive BenchError where
  /-- The object does not exist, or is of another kind. -/
  | wrongKind
  | binding (cause : BindingError)
  | schema (cause : SchemaError)
  | layer (cause : LayerError)
  | graph (cause : GraphError)
  | apply (cause : ApplyError)
  | run (cause : RunError)
  /-- A set cannot hold what is no literal. -/
  | noLiteral
  /-- A literal, printed, that is not found. -/
  | absent (literal : String)
  /-- There is no member with this number. -/
  | outOfRange
  /-- A literal, printed, that should have been ground. -/
  | openLiteral (literal : String)
  /-- A literal, printed, that should have been ground to be unified with. -/
  | openTarget (literal : String)
  /-- A literal, printed, that a fact layer cannot hold. -/
  | openFact (literal : String)
  /-- An action, printed, that has no step. -/
  | openAction (action : String)
  /-- An action, by name, that an action layer cannot hold. -/
  | schemaInLayer (action : String)
  /-- An action, by name, that is no instance. -/
  | noKey (action : String)
  deriving DecidableEq, Repr

/-- The message about a failed operation. -/
def BenchError.message : BenchError → String
  | wrongKind => "no such object"
  | binding cause => cause.message
  | schema cause => cause.message
  | layer cause => cause.message
  | graph cause => cause.message
  | apply cause => cause.message
  | run cause => cause.message
  | noLiteral => "FactSet cannot hold None"
  | absent literal => literal
  | outOfRange => "list index out of range"
  | openLiteral literal => Literal.openMessage literal
  | openTarget literal => Literal.notGroundMessage literal
  | openFact literal => FactLayer.notGroundMessage literal
  | openAction action => Action.notGroundMessage action
  | schemaInLayer action => ActionLayer.notGroundMessage action
  | noKey action => s!"Action schema '{action}' has no value key"

/-- An operation on a workbench. -/
abbrev Bench : Type → Type := ExceptT BenchError (StateM Workbench)

namespace Bench

/-- The arena. -/
def arena : Bench Arena := return (← get).arena

/-- Put a new arena in place of the old one. -/
def setArena (arena : Arena) : Bench Unit := modify fun b => { b with arena }

/-- Add an object. -/
def add (item : Item) : Bench Handle :=
  modifyGet fun b => (b.items.size, { b with items := b.items.push item })

/-- Change an object. -/
def put (handle : Handle) (item : Item) : Bench Unit :=
  modify fun b => { b with items := b.items.setIfInBounds handle item }

/-- An object. -/
def item (handle : Handle) : Bench Item := do
  match (← get).items[handle]? with
  | some item => return item
  | none => throw .wrongKind

/-- The set of a handle. -/
def set (handle : Handle) : Bench IndexedSet := do
  match (← item handle) with
  | .set members => return members
  | _ => throw .wrongKind

/-- The action of a handle. -/
def action (handle : Handle) : Bench Action := do
  match (← item handle) with
  | .action action => return action
  | _ => throw .wrongKind

/-- The actions of handles. -/
def actions (handles : List Handle) : Bench (List Action) := handles.mapM action

/-- The file of a handle. -/
def file (handle : Handle) : Bench FileItem := do
  match (← item handle) with
  | .file file => return file
  | _ => throw .wrongKind

/-- The actions of a list. -/
def actionList (handle : Handle) : Bench (List Handle) := do
  match (← item handle) with
  | .actionList members => return members
  | _ => throw .wrongKind

/-- The relation of a handle. -/
def relation (handle : Handle) : Bench (PairRelation String) := do
  match (← item handle) with
  | .relation pairs => return pairs
  | _ => throw .wrongKind

/-- The printed forms of actions. -/
def texts (actions : List Handle) : Bench (List String) := do
  let b ← get
  return actions.map fun h => b.text (.object h)

/-! ### Cells -/

/-- A scope for new cells. -/
def newScope : Bench Nat :=
  modifyGet fun b => (b.scopes, { b with scopes := b.scopes + 1 })

/-- A new cell. -/
def newCell (scope : Nat) (value : Option String) : Bench Nat := do
  let (i, arena) := (← arena).newCell value scope
  setArena arena
  return i

/-- Bind a cell; no value is refused. -/
def bind (i : Nat) (value : Option String) : Bench Bool := do
  match value with
  | none => throw (.binding .noValue)
  | some value =>
    let (accepted, arena) := (← arena).bind i value
    setArena arena
    return accepted

/-- Link two cells. -/
def link (i j : Nat) : Bench Bool := do
  match (← arena).link i j with
  | .ok (accepted, arena) =>
    setArena arena
    return accepted
  | .error e => throw (.binding e)

/-- Mark two cells distinct. -/
def markDistinct (i j : Nat) : Bench Unit := do
  match (← arena).markDistinct i j with
  | .ok arena => setArena arena
  | .error e => throw (.binding e)

/-! ### Literals and sets -/

/-- Unify a literal with another one: the cells bound, or none if it fails. -/
def unify (l target : Literal) : Bench (Option (List Nat)) := do
  let (outcome, arena) := l.unify (← arena) target
  setArena arena
  match outcome with
  | .matched bound => return some bound
  | .failed => return none
  | .notGround text => throw (.openTarget text)

/-- The fact that a literal says. -/
def ground (l : Literal) : Bench Fact := do
  match l.fact? (← arena) with
  | some f => return f
  | none => throw (.openLiteral (l.text (← arena)))

/-- Change a set. -/
def changeSet (handle : Handle) (f : Arena → IndexedSet → IndexedSet) : Bench IndexedSet := do
  let s := f (← arena) (← set handle)
  put handle (.set s)
  return s

/-- Add a literal to a set: whether it was new. -/
def insert (handle : Handle) (l : Literal) : Bench Bool := do
  let known := (← set handle).contains (← arena) l
  let _ ← changeSet handle fun arena s => s.insert arena l
  return !known

/-- Remove a literal from a set. -/
def remove (handle : Handle) (l : Literal) : Bench IndexedSet := do
  match (← set handle).remove? (← arena) l with
  | some s =>
    put handle (.set s)
    return s
  | none => throw (.absent (l.text (← arena)))

/-- An element of a list by its number; negative numbers count from the end. -/
def element {α : Type} (l : List α) (index : Int) : Bench α :=
  let place := if index < 0 then index + l.length else index
  match if place < 0 then none else l[place.toNat]? with
  | some a => return a
  | none => throw .outOfRange

end Bench

end Strips
