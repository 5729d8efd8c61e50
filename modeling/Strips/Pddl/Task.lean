import Strips.Text.LetterCase

/-!
# PDDL tasks

A task is the content of a domain file and a problem file in the STRIPS fragment of PDDL, with
inequalities between arguments. Names in a task are exported names: lower case, because PDDL does
not tell upper from lower case, and starting with a letter.

## Main definitions

* `Pddl.exportName` – the exported form of a name.
* `Pddl.Task`, `Task.domainText`, `Task.problemText` – a task and its two files.
* `Pddl.Operator.bind` – the atoms of an operator under values of its parameters.
-/

namespace Strips.Pddl

/-- The exported form of a name: lower case, led by `n` if it does not start with a letter. -/
def exportName (name : String) : String :=
  let name := Text.lower name
  if (name.toList.head?.map Text.isLetter).getD false then name else "n" ++ name

/-- An argument of an atom: an exported name, or a parameter of the operator by its number. -/
inductive Argument where
  | object (name : String)
  | parameter (index : Nat)
  deriving DecidableEq, Repr

/-- An atom over arguments of some kind. -/
structure Atom (α : Type) where
  name : String
  arguments : List α
  deriving DecidableEq, Repr

/-- An operator. -/
structure Operator where
  name : String
  /-- The number of parameters. -/
  arity : Nat
  preconditions : List (Atom Argument)
  /-- Arguments that must differ. -/
  unequal : List (Argument × Argument)
  added : List (Atom Argument)
  deleted : List (Atom Argument)
  deriving DecidableEq, Repr

/-- The content of a domain file and a problem file. -/
structure Task where
  domainName : String
  problemName : String
  /-- Names used by operators. -/
  constants : List String
  /-- Names of predicates with their arities. -/
  predicates : List (String × Nat)
  operators : List Operator
  /-- The other names. -/
  objects : List String
  initial : List (Atom String)
  goals : List (Atom String)
  deriving DecidableEq, Repr

/-! ### Text -/

/-- Words with single spaces between them. -/
def words (ws : List String) : String := " ".intercalate ws

/-- The variable that stands for a parameter. -/
def variableText (index : Nat) : String := s!"?x{index}"

/-- An argument as text. -/
def Argument.text : Argument → String
  | object name => name
  | parameter index => variableText index

/-- An atom as text. -/
def Atom.text (a : Atom String) : String := "(" ++ words (a.name :: a.arguments) ++ ")"

/-- An atom of an operator as text. -/
def Atom.openText (a : Atom Argument) : String :=
  (⟨a.name, a.arguments.map Argument.text⟩ : Atom String).text

/-- An inequality as text. -/
def unequalText (pair : Argument × Argument) : String :=
  s!"(not (= {pair.1.text} {pair.2.text}))"

/-- The lines of an operator. -/
def Operator.lines (o : Operator) : List String :=
  let parameters := words ((List.range o.arity).map variableText)
  let preconditions := words (o.preconditions.map Atom.openText ++ o.unequal.map unequalText)
  let effects :=
    words (o.added.map Atom.openText ++ o.deleted.map fun a => s!"(not {a.openText})")
  [s!"  (:action {o.name}", s!"    :parameters ({parameters})",
    s!"    :precondition (and {preconditions})", s!"    :effect (and {effects})", "  )"]

/-- The line that declares a predicate. -/
def predicateLine (name : String) (arity : Nat) : String :=
  "    (" ++ words (name :: (List.range arity).map fun i => s!"?a{i}") ++ ")"

/-- Lines as text, each ended by a line feed. -/
def unlines (lines : List String) : String := String.join (lines.map (· ++ "\n"))

namespace Task

/-- The features of PDDL that the task uses. -/
def requirements (t : Task) : List String :=
  if t.operators.any fun o => !o.unequal.isEmpty then
    [":strips", ":equality", ":negative-preconditions"]
  else [":strips"]

/-- The domain file. -/
def domainText (t : Task) : String :=
  unlines
    ([s!"(define (domain {t.domainName})", s!"  (:requirements {words t.requirements})"] ++
      (if t.constants.isEmpty then [] else [s!"  (:constants {words t.constants})"]) ++
      ["  (:predicates"] ++ t.predicates.map (fun (name, arity) => predicateLine name arity) ++
      ["  )"] ++ t.operators.flatMap Operator.lines ++ [")"])

/-- The problem file. -/
def problemText (t : Task) : String :=
  unlines
    ([s!"(define (problem {t.problemName})", s!"  (:domain {t.domainName})"] ++
      (if t.objects.isEmpty then [] else [s!"  (:objects {words t.objects})"]) ++
      [s!"  (:init {words (t.initial.map Atom.text)})",
        s!"  (:goal (and {words (t.goals.map Atom.text)}))", ")"])

end Task

/-! ### Meaning -/

/-- The value of an argument. -/
def Argument.bind (values : List String) : Argument → String
  | object name => name
  | parameter index => values.getD index ""

/-- An atom under values of the parameters. -/
def Atom.bind (values : List String) (a : Atom Argument) : Atom String :=
  ⟨a.name, a.arguments.map (·.bind values)⟩

/-- Preconditions, deleted and added atoms of an operator under values of its parameters. -/
structure GroundOperator where
  preconditions : List (Atom String)
  deleted : List (Atom String)
  added : List (Atom String)
  deriving DecidableEq, Repr

/-- The operator under values of its parameters. -/
def Operator.bind (o : Operator) (values : List String) : GroundOperator :=
  ⟨o.preconditions.map (·.bind values), o.deleted.map (·.bind values),
    o.added.map (·.bind values)⟩

/-- Whether the inequalities of an operator hold under values of its parameters. -/
def Operator.allows (o : Operator) (values : List String) : Bool :=
  o.unequal.all fun (a, b) => a.bind values != b.bind values

/-- The names that parameters range over. -/
def Task.universe (t : Task) : List String := (t.constants ++ t.objects).eraseDups

/-- The atoms after a ground operator: deletes first, then adds. -/
def GroundOperator.after (o : GroundOperator) (state : List (Atom String)) : List (Atom String) :=
  state.filter (fun a => !o.deleted.contains a && !o.added.contains a) ++ o.added.eraseDups

end Strips.Pddl
