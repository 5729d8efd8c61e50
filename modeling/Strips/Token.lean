/-!
# Tokens of a problem text

A problem text is read as a list of tokens: identifiers and six marks. A token keeps the place where
it starts, which messages about the text point to.

## Main definitions

* `Lexeme` – what a token says, `Lexeme.spelling` its characters.
* `Position` – a line and a column, both counted from one.
* `Token` – a lexeme at a position.
-/

namespace Strips

/-- What a token says. -/
inductive Lexeme where
  /-- A name, a constant, a variable or a keyword. -/
  | identifier (text : String)
  | leftParen
  | rightParen
  | comma
  | dot
  /-- `::`, between the name of an action and its preconditions. -/
  | quadDot
  /-- `=>`, between preconditions and effects. -/
  | arrow
  deriving DecidableEq, Repr, Inhabited

namespace Lexeme

/-- The characters of the lexeme in a text. -/
def spelling : Lexeme → String
  | identifier text => text
  | leftParen => "("
  | rightParen => ")"
  | comma => ","
  | dot => "."
  | quadDot => "::"
  | arrow => "=>"

/-- The text of an identifier. -/
def text? : Lexeme → Option String
  | identifier text => some text
  | _ => none

/-- How messages name the lexeme. -/
def describe (lexeme : Lexeme) : String :=
  match lexeme with
  | identifier text => s!"identifier '{text}'"
  | _ => s!"'{lexeme.spelling}'"

end Lexeme

/-- A place in a text; lines and columns count from one, columns in characters. -/
structure Position where
  line : Nat
  column : Nat
  deriving DecidableEq, Repr, Inhabited

namespace Position

/-- The first place of every text. -/
def start : Position := ⟨1, 1⟩

/-- The place after the character `c`. Only a line feed ends a line. -/
def after (p : Position) (c : Char) : Position :=
  if c = '\n' then ⟨p.line + 1, 1⟩ else ⟨p.line, p.column + 1⟩

/-- The place after a text that starts at `p`. -/
def afterText (p : Position) (text : List Char) : Position := text.foldl after p

@[simp] theorem afterText_nil (p : Position) : p.afterText [] = p := rfl

@[simp] theorem afterText_cons (p : Position) (c : Char) (text : List Char) :
    p.afterText (c :: text) = (p.after c).afterText text := rfl

theorem afterText_append (p : Position) (s t : List Char) :
    p.afterText (s ++ t) = (p.afterText s).afterText t := by
  simp [afterText, List.foldl_append]

end Position

/-- A lexeme and the place where it starts. -/
structure Token where
  lexeme : Lexeme
  position : Position
  deriving DecidableEq, Repr, Inhabited

namespace Token

/-- The text of an identifier token. -/
def text? (token : Token) : Option String := token.lexeme.text?

/-- How messages name the token. -/
def describe (token : Token) : String := token.lexeme.describe

/-- Whether the token is the identifier `word`. -/
def isWord (token : Token) (word : String) : Bool := token.lexeme == .identifier word

end Token

end Strips
