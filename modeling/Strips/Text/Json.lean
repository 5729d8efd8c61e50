import Strips.Text.Quoted

/-!
# JSON text

A value is written over several lines, each level indented by two more spaces, in ASCII: characters
beyond it are written in units of sixteen bits, so that one beyond the basic plane becomes two
escapes. Empty lists and objects take one line.
-/

namespace Strips.Text

/-- A JSON value. A number is given by its text. -/
inductive JsonValue where
  | null
  | bool (value : Bool)
  | number (text : String)
  | string (value : String)
  | array (items : List JsonValue)
  | object (fields : List (String × JsonValue))

namespace JsonValue

/-- A whole number. -/
def int (n : Int) : JsonValue := .number (toString n)

/-- A value that may be missing. -/
def optional {α : Type} (f : α → JsonValue) : Option α → JsonValue
  | some a => f a
  | none => .null

/-- A list of strings. -/
def strings (l : List String) : JsonValue := .array (l.map .string)

/-- An escape of sixteen bits. -/
def unit (n : Nat) : List Char := '\\' :: 'u' :: Quoted.hex 4 n

/-- One character of a string. -/
def escape (c : Char) : List Char :=
  if c = '"' || c = '\\' then ['\\', c]
  else if c = '\n' then ['\\', 'n']
  else if c = '\r' then ['\\', 'r']
  else if c = '\t' then ['\\', 't']
  else if c.toNat = 0x08 then ['\\', 'b']
  else if c.toNat = 0x0C then ['\\', 'f']
  else if 0x20 ≤ c.toNat && c.toNat < 0x7F then [c]
  else if c.toNat < 0x10000 then unit c.toNat
  else
    let n := c.toNat - 0x10000
    unit (0xD800 + n / 0x400) ++ unit (0xDC00 + n % 0x400)

/-- A string in quotes. -/
def quoteText (s : String) : String := "\"" ++ String.ofList (s.toList.flatMap escape) ++ "\""

/-- A new line, indented. -/
def newline (indent : Nat) : String := "\n" ++ String.ofList (List.replicate indent ' ')

mutual

/-- A value as text, in a place indented by `indent`. -/
def render (indent : Nat) : JsonValue → String
  | .null => "null"
  | .bool value => if value then "true" else "false"
  | .number text => text
  | .string value => quoteText value
  | .array [] => "[]"
  | .array (item :: items) =>
    "[" ++ newline (indent + 2) ++ render (indent + 2) item ++ renderItems (indent + 2) items ++
      newline indent ++ "]"
  | .object [] => "\x7b\x7d"
  | .object ((key, value) :: fields) =>
    "\x7b" ++ newline (indent + 2) ++ quoteText key ++ ": " ++ render (indent + 2) value ++
      renderFields (indent + 2) fields ++ newline indent ++ "\x7d"

/-- The items after the first one. -/
def renderItems (indent : Nat) : List JsonValue → String
  | [] => ""
  | item :: items => "," ++ newline indent ++ render indent item ++ renderItems indent items

/-- The fields after the first one. -/
def renderFields (indent : Nat) : List (String × JsonValue) → String
  | [] => ""
  | (key, value) :: fields =>
    "," ++ newline indent ++ quoteText key ++ ": " ++ render indent value ++
      renderFields indent fields

end

/-- A value as text. -/
def text (value : JsonValue) : String := value.render 0

end JsonValue

end Strips.Text
