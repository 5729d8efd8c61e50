import Strips.Text.CharClass

/-!
# Quoted text

A text shown in a message stands in single quotes, or in double quotes when it holds a single quote
and no double one. The quote, the backslash and characters without a printed form are escaped.
-/

namespace Strips.Text.Quoted

/-- A number in lower-case hexadecimal digits, padded with zeros to a width. -/
def hex (width n : Nat) : List Char :=
  let digits := Nat.toDigits 16 n
  List.replicate (width - digits.length) '0' ++ digits

/-- One character inside a text quoted by `quote`. -/
def escape (quote c : Char) : List Char :=
  if c = quote || c = '\\' then ['\\', c]
  else if c = '\n' then ['\\', 'n']
  else if c = '\r' then ['\\', 'r']
  else if c = '\t' then ['\\', 't']
  else if isPrintable c then [c]
  else if c.toNat < 0x100 then '\\' :: 'x' :: hex 2 c.toNat
  else if c.toNat < 0x10000 then '\\' :: 'u' :: hex 4 c.toNat
  else '\\' :: 'U' :: hex 8 c.toNat

/-- The quote that a text is put in. -/
def quoteOf (s : List Char) : Char :=
  if s.contains '\'' && !s.contains '"' then '"' else '\''

/-- The text in quotes. -/
def encode (s : List Char) : List Char :=
  let quote := quoteOf s
  quote :: s.flatMap (escape quote) ++ [quote]

end Quoted

/-- The text in quotes, as messages show it. -/
def quoted (s : String) : String := .ofList (Quoted.encode s.toList)

end Strips.Text
