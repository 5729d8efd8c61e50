import Strips.Schema
import Strips.Token.Lexer

/-!
# Statements of a problem text

A problem text is a sequence of statements, each an initial fact, a goal or an action schema:

    kup :: mam(penize), zbozi(X) => not mam(penize), mam(X).
    mam(orezavatko).
    goal mam(brambory).

This module says what a statement is and what can be wrong with one. Every error but one names the
token or the character at fault; at the end of the input it is the last token of the text.
-/

namespace Strips

/-- One statement. -/
inductive Statement where
  | fact (fact : Fact)
  | goal (fact : Fact)
  | schema (schema : Schema)
  deriving Repr

/-- The printed form of a statement. -/
def Statement.text : Statement → String
  | fact f | goal f => f.text
  | schema s => s.text

/-- What the grammar asks for at some place. -/
inductive Expectation where
  /-- The name of a fact or an action. -/
  | name
  /-- `goal` marks a fact. -/
  | factAfterGoal
  /-- What follows a name. -/
  | afterName
  /-- The mark between the name of an action and its preconditions. -/
  | quadDot
  /-- The dot after a fact. -/
  | dot
  /-- The predicate that `not` denies. -/
  | nameAfterNot
  /-- The name that a literal starts with. -/
  | literal
  /-- A comma, or the mark that ends a list of literals. -/
  | literalEnd (terminator : Lexeme)
  /-- A constant or a variable. -/
  | argument
  /-- A comma, or the end of a list of arguments. -/
  | argumentEnd
  deriving DecidableEq, Repr

/-- How messages name what is asked for. -/
def Expectation.text : Expectation → String
  | name => "Identifier (action or predicate name) expected"
  | factAfterGoal => "A goal must be a fact, not an action"
  | afterName => "Dot, left parenthesis or '::' expected after the name"
  | quadDot => "'::' expected"
  | dot => "Dot expected"
  | nameAfterNot => "Predicate name expected after 'not'"
  | literal => "Predicate starting with an identifier expected"
  | literalEnd terminator => s!"Comma or '{terminator.spelling}' expected"
  | argument => "Identifier expected"
  | argumentEnd => "Comma or right parenthesis expected"

/-- Why a text is no problem text. -/
inductive SyntaxError where
  /-- A character that starts no token. -/
  | character (cause : LexError)
  /-- A token where the grammar asks for something else. -/
  | unexpected (token : Token) (expected : Expectation)
  /-- The input ends within a statement; with the place of the last token, if there is one. -/
  | endOfInput (last : Option Position)
  /-- A fact with a variable. -/
  | openFact (name : String) (position : Position)
  /-- A statement that is no schema, for the reason given. -/
  | schema (cause : SchemaError) (position : Position)
  deriving DecidableEq, Repr

namespace SyntaxError

/-- The place of the error. -/
def position? : SyntaxError → Option Position
  | character cause => some cause.position
  | unexpected token _ => some token.position
  | endOfInput last => last
  | openFact _ position => some position
  | schema _ position => some position

/-- The message without the place. -/
def detail : SyntaxError → String
  | character cause => cause.detail
  | unexpected token expected => s!"{expected.text}, got {token.describe}"
  | endOfInput _ => "Unexpected end of input, statement is not complete"
  | openFact name _ => s!"Fact {name} must not contain variables"
  | schema cause _ => cause.message

/-- The message, led by the place. -/
def message (e : SyntaxError) : String :=
  match e.position? with
  | some p => s!"line {p.line}, column {p.column}: {e.detail}"
  | none => e.detail

end SyntaxError

end Strips
