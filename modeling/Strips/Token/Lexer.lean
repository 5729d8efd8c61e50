import Strips.Text.CharClass
import Strips.Text.Quoted
import Strips.Token

/-!
# From characters to tokens

The lexer is a finite automaton: `Mode` is what it has seen of the current token, `step` reads one
character, and `scan` runs it over a text. A mark of two characters is a mode of its own, so no
step looks ahead, and an identifier ends at the first character that cannot continue it, which is
then read from the gap between tokens.

White space separates tokens, and `%` starts a comment that runs to the end of the line.

## Main definitions

* `Lexer.step`, `Lexer.finish` – one character, and the end of the text.
* `tokenize` – the tokens of a text, or the first character that starts none.
-/

namespace Strips

/-- A character that starts no token, and its place. -/
structure LexError where
  character : Char
  position : Position
  deriving DecidableEq, Repr

/-- The message, without the place. -/
def LexError.detail (e : LexError) : String :=
  s!"Unexpected character {Text.quoted (String.singleton e.character)}"

namespace Lexer

/-- What has been read of the current token. -/
inductive Mode where
  /-- Nothing: between tokens. -/
  | gap
  /-- A comment, up to the end of the line. -/
  | comment
  /-- An identifier that starts at `start`; its characters so far, the last one first. -/
  | word (start : Position) (read : List Char)
  /-- The first colon of `::`. -/
  | colon (start : Position)
  /-- The equals sign of `=>`. -/
  | equals (start : Position)
  deriving DecidableEq, Repr

/-- A character that may continue an identifier; only an alphanumeric one starts it. -/
def isIdentifierChar (c : Char) : Bool := Text.isAlphanumeric c || c == '-' || c == '_'

/-- Read a character between tokens. -/
def stepGap (p : Position) (c : Char) : Except LexError (Mode × List Token) :=
  if Text.isSpace c then .ok (.gap, [])
  else if c = '%' then .ok (.comment, [])
  else if c = '(' then .ok (.gap, [⟨.leftParen, p⟩])
  else if c = ')' then .ok (.gap, [⟨.rightParen, p⟩])
  else if c = ',' then .ok (.gap, [⟨.comma, p⟩])
  else if c = '.' then .ok (.gap, [⟨.dot, p⟩])
  else if c = ':' then .ok (.colon p, [])
  else if c = '=' then .ok (.equals p, [])
  else if Text.isAlphanumeric c then .ok (.word p [c], [])
  else .error ⟨c, p⟩

/-- The identifier token of the characters read. -/
def wordToken (start : Position) (read : List Char) : Token :=
  ⟨.identifier (.ofList read.reverse), start⟩

/-- Read one character at the place `p`: the next mode and the tokens that are complete. -/
def step (mode : Mode) (p : Position) (c : Char) : Except LexError (Mode × List Token) :=
  match mode with
  | .gap => stepGap p c
  | .comment => .ok (if c = '\n' then .gap else .comment, [])
  | .word start read =>
    if isIdentifierChar c then .ok (.word start (c :: read), [])
    else (stepGap p c).map fun (mode, tokens) => (mode, wordToken start read :: tokens)
  | .colon start =>
    if c = ':' then .ok (.gap, [⟨.quadDot, start⟩]) else .error ⟨':', start⟩
  | .equals start =>
    if c = '>' then .ok (.gap, [⟨.arrow, start⟩]) else .error ⟨'=', start⟩

/-- The end of the text: an identifier or a comment may end there, half a mark may not. -/
def finish : Mode → Except LexError (List Token)
  | .gap | .comment => .ok []
  | .word start read => .ok [wordToken start read]
  | .colon start => .error ⟨':', start⟩
  | .equals start => .error ⟨'=', start⟩

/-- Run the automaton over a text that starts at the place `p`. -/
def scan (mode : Mode) (p : Position) : List Char → Except LexError (List Token)
  | [] => finish mode
  | c :: rest =>
    match step mode p c with
    | .error e => .error e
    | .ok (mode, tokens) => (scan mode (p.after c) rest).map (tokens ++ ·)

end Lexer

/-- The tokens of a text. -/
def tokenize (text : String) : Except LexError (List Token) :=
  Lexer.scan .gap .start text.toList

end Strips
