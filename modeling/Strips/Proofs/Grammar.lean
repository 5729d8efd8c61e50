import Mathlib.Data.List.Forall2
import Strips.Problem

/-!
# The grammar of problem texts

A problem text is a sequence of *written* statements: names, arguments and keywords, as they stand
in the text. This module says how they are spelled, which of them are statements of the language,
and what a problem lists that was read from them. It mentions no reader.

    fact    [goal | goals] name [arguments] .
    action  [goals] name :: [literal {, literal}] => [effect {, effect}] .

A literal is a name with arguments, an effect is a literal after `not` or without it, and arguments
stand in parentheses, parted by commas. A keyword that may stand somewhere is always read as one
there: no fact without a keyword is called `goal`, and no effect without `not` is called `not`.

## Main definitions

* `WrittenStatement.lexemes` – how a statement is spelled.
* `WrittenStatement.Grammatical` – which statements there are.
* `WrittenStatement.Admissible` – the conditions on their variables and constraints.
* `Schema.Says`, `Problem.Lists` – what is read from them.
-/

namespace Strips

/-! ### Written statements -/

/-- A literal as it is written. Without arguments it may have empty parentheses, or none. -/
structure WrittenLiteral where
  name : String
  /-- What stands in parentheses, if there are any. -/
  parenthesized : Option (List String) := none
  deriving DecidableEq, Repr

/-- An effect as it is written. -/
structure WrittenEffect where
  /-- Whether `not` stands before the literal. -/
  denied : Bool
  literal : WrittenLiteral
  deriving DecidableEq, Repr

/-- An action as it is written. -/
structure WrittenAction where
  name : String
  preconditions : List WrittenLiteral
  effects : List WrittenEffect
  deriving DecidableEq, Repr

/-- A word before a fact that makes it a goal. -/
inductive Keyword where
  | goal
  /-- The facts that follow are goals, too. -/
  | goals
  deriving DecidableEq, Repr

/-- A statement without its keyword. -/
inductive WrittenBody where
  | fact (literal : WrittenLiteral)
  | action (action : WrittenAction)
  deriving DecidableEq, Repr

/-- A statement as it is written. -/
structure WrittenStatement where
  keyword : Option Keyword := none
  body : WrittenBody
  deriving DecidableEq, Repr

/-! ### Spelling -/

/-- Items with commas between them. -/
def Lexeme.parted (items : List (List Lexeme)) : List Lexeme := List.intercalate [.comma] items

/-- The word of a keyword. -/
def Keyword.word : Keyword → String
  | goal => "goal"
  | goals => "goals"

theorem Keyword.word_inj : ∀ {k m : Keyword}, k.word = m.word → k = m
  | goal, goal, _ => rfl
  | goals, goals, _ => rfl
  | goal, goals, h => absurd h (by decide)
  | goals, goal, h => absurd h (by decide)

/-- What stands after the name of a literal. -/
def WrittenLiteral.tail (l : WrittenLiteral) : List Lexeme :=
  match l.parenthesized with
  | none => []
  | some xs => .leftParen :: (Lexeme.parted (xs.map fun x => [.identifier x]) ++ [.rightParen])

def WrittenLiteral.lexemes (l : WrittenLiteral) : List Lexeme := .identifier l.name :: l.tail

def WrittenEffect.lexemes (e : WrittenEffect) : List Lexeme :=
  if e.denied then .identifier "not" :: e.literal.lexemes else e.literal.lexemes

/-- What stands after the name of an action. -/
def WrittenAction.tail (a : WrittenAction) : List Lexeme :=
  .quadDot :: (Lexeme.parted (a.preconditions.map (·.lexemes)) ++ .arrow ::
    (Lexeme.parted (a.effects.map (·.lexemes)) ++ [.dot]))

def WrittenBody.name : WrittenBody → String
  | fact l => l.name
  | action a => a.name

/-- What stands after the name of a statement. -/
def WrittenBody.tail : WrittenBody → List Lexeme
  | fact l => l.tail ++ [.dot]
  | action a => a.tail

def WrittenStatement.lexemes (w : WrittenStatement) : List Lexeme :=
  (w.keyword.map fun k => .identifier k.word).toList ++ .identifier w.body.name :: w.body.tail

theorem WrittenStatement.length_lexemes_pos (w : WrittenStatement) : 0 < w.lexemes.length := by
  rw [lexemes, List.length_append, List.length_cons]
  omega

/-! ### Statements of the language -/

/-- Where `not` may stand it is read as a keyword. -/
def WrittenEffect.Leads (e : WrittenEffect) : Prop := e.denied = false → e.literal.name ≠ "not"

/-- Where a keyword may stand, it is read as one. -/
structure WrittenStatement.Leads (w : WrittenStatement) : Prop where
  keyword : w.keyword = none → ∀ k : Keyword, w.body.name ≠ k.word
  effects : ∀ a, w.body = .action a → ∀ e ∈ a.effects, e.Leads

/-- A statement of the grammar. Only a fact can follow `goal`. -/
structure WrittenStatement.Grammatical (w : WrittenStatement) : Prop extends w.Leads where
  fact : w.keyword = some .goal → ∃ l, w.body = .fact l

/-- Whether an argument is a variable. -/
def isVariable (x : String) : Bool := (x.toList.head?.map Text.isUpper).getD false

namespace WrittenLiteral

def arguments (l : WrittenLiteral) : List String := l.parenthesized.getD []

/-- The variables of a literal, as often as they occur. -/
def vars (l : WrittenLiteral) : List String := l.arguments.filter isVariable

/-- The fact that a literal without variables is. -/
def fact (l : WrittenLiteral) : Fact := ⟨l.name, l.arguments⟩

end WrittenLiteral

namespace WrittenAction

/-- The preconditions that are no constraints. -/
def needed (a : WrittenAction) : List WrittenLiteral :=
  a.preconditions.filter (·.name != distinctName)

/-- The preconditions that are constraints. -/
def constraints (a : WrittenAction) : List WrittenLiteral :=
  a.preconditions.filter (·.name == distinctName)

/-- The literals of the effects that are denied, or of those that are not. -/
def effectsWith (a : WrittenAction) (denied : Bool) : List WrittenLiteral :=
  (a.effects.filter (·.denied == denied)).map (·.literal)

/-- The variables of an action that are in more than constraints, in the order in which they are
met: first those of the preconditions, then those of denied and of other effects. -/
def vars (a : WrittenAction) : List String :=
  ((a.needed ++ a.effectsWith true ++ a.effectsWith false).flatMap (·.vars)).eraseDups

/-- Each constraint has two arguments that are not one variable, and each variable of an effect is
one of a precondition that is no constraint. -/
structure Admissible (a : WrittenAction) : Prop where
  distinct : ∀ l ∈ a.constraints, ∃ x y, l.arguments = [x, y] ∧ ¬(isVariable x = true ∧ x = y)
  bound : ∀ e ∈ a.effects, ∀ x ∈ e.literal.vars, ∃ l ∈ a.needed, x ∈ l.vars

end WrittenAction

/-- A fact has no variables, and an action uses them as it may. -/
def WrittenStatement.Admissible (w : WrittenStatement) : Prop :=
  match w.body with
  | .fact l => l.vars = []
  | .action a => a.Admissible

/-! ### What is read -/

/-- The term of an argument, if each variable has a cell. -/
def writtenTerm (cell : String → Nat) (x : String) : Term :=
  if isVariable x then .cell (cell x) else .const x

/-- A literal over the cells of the variables. -/
def WrittenLiteral.over (cell : String → Nat) (l : WrittenLiteral) : Literal :=
  ⟨l.name, l.arguments.map (writtenTerm cell)⟩

/-- A schema says what was written, with one cell for all occurrences of a variable and others for
other variables. Literals that are the same are kept once. -/
structure Schema.Says (s : Schema) (a : WrittenAction) (cell : String → Nat) : Prop where
  injective : ∀ l ∈ a.preconditions, ∀ x ∈ l.vars, ∀ m ∈ a.preconditions, ∀ y ∈ m.vars,
    cell x = cell y → x = y
  name : s.action.name = a.name
  preconditions : s.action.preconditions.members.map (·.resolve s.arena) =
    (a.needed.map (·.over cell)).eraseDups
  distinct : s.action.distinct.map (fun p => [p.1.resolve s.arena, p.2.resolve s.arena]) =
    a.constraints.map fun l => (l.over cell).terms
  negative : s.action.negative.members.map (·.resolve s.arena) =
    ((a.effectsWith true).map (·.over cell)).eraseDups
  positive : s.action.positive.members.map (·.resolve s.arena) =
    ((a.effectsWith false).map (·.over cell)).eraseDups
  parameters : s.action.parameters = a.vars.map cell

namespace WrittenStatement

/-- The action of a statement. -/
def action? (w : WrittenStatement) : Option WrittenAction :=
  match w.body with
  | .fact _ => none
  | .action a => some a

/-- Whether the facts after a statement are goals: after `goals` they are, up to the next action. -/
def modeAfter (w : WrittenStatement) (goalMode : Bool) : Bool :=
  match w.body with
  | .fact _ => goalMode || w.keyword == some .goals
  | .action _ => false

/-- The facts of statements, with whether they are goals. A fact is one if it has a keyword, or if
there was `goals` since the last action; `goalMode` says whether there was at the start. -/
def facts (goalMode : Bool) : List WrittenStatement → List (Bool × Fact)
  | [] => []
  | w :: rest =>
    match w.body with
    | .fact l => (goalMode || w.keyword.isSome, l.fact) :: facts (w.modeAfter goalMode) rest
    | .action _ => facts (w.modeAfter goalMode) rest

end WrittenStatement

/-- A problem lists what statements say, in their order, with equal facts once. -/
structure Problem.Lists (p : Problem) (ws : List WrittenStatement) : Prop where
  schemas : List.Forall₂ (fun s a => ∃ cell, s.Says a cell) p.schemas (ws.filterMap (·.action?))
  initial : p.initial = (((WrittenStatement.facts false ws).filter (!·.1)).map Prod.snd).eraseDups
  goals : p.goals = (((WrittenStatement.facts false ws).filter (·.1)).map Prod.snd).eraseDups

end Strips
