import Strips.Text.Table.Alphanumeric
import Strips.Text.Table.Unprintable
import Strips.Text.Table.LetterCase

/-!
# Classes of characters

The classes that problem texts, settings and printed messages depend on, over all of Unicode. Each
is decided by a short test for ASCII and by a table of code point ranges for the rest, so that
texts in ASCII never touch a table.

## Main definitions

* `isAlphanumeric`, `isLetter`, `isUpper`, `isSpace`, `isPrintable` – the classes.
* `decimalValue?` – the value of a decimal digit of any script.
-/

namespace Strips.Text

/-- Whether a code point lies in one of the ranges, ends included. -/
def inRanges (ranges : List (Nat × Nat)) (c : Char) : Bool :=
  ranges.any fun r => r.1 ≤ c.toNat && c.toNat ≤ r.2

/-- Whether a code point is in one of the strided runs `(first, last, stride)`. -/
def inRuns (runs : List (Nat × Nat × Nat)) (c : Char) : Bool :=
  runs.any fun (first, last, stride) =>
    first ≤ c.toNat && c.toNat ≤ last && (c.toNat - first) % stride == 0

/-- A letter, a digit or a number: the characters that may start an identifier. -/
def isAlphanumeric (c : Char) : Bool :=
  if c.toNat < 0x80 then c.isAlphanum else inRanges Table.alphanumeric c

/-- A letter: alphanumeric and no number. -/
def isLetter (c : Char) : Bool :=
  if c.toNat < 0x80 then c.isAlpha
  else inRanges Table.alphanumeric c && !inRanges Table.numeric c

/-- An upper-case character: as the first one of an argument it marks a variable. -/
def isUpper (c : Char) : Bool :=
  if c.toNat < 0x80 then c.isUpper else inRuns Table.uppercase c

/-- White space. The four information separators count, the zero-width space does not. -/
def isSpace (c : Char) : Bool :=
  inRanges [(0x09, 0x0D), (0x1C, 0x20), (0x85, 0x85), (0xA0, 0xA0), (0x1680, 0x1680),
    (0x2000, 0x200A), (0x2028, 0x2029), (0x202F, 0x202F), (0x205F, 0x205F), (0x3000, 0x3000)] c

/-- A character that quoted text shows as itself. Of the spaces only U+0020 is. -/
def isPrintable (c : Char) : Bool :=
  if c.toNat < 0x80 then 0x20 ≤ c.toNat && c.toNat < 0x7F
  else !inRanges Table.unprintable c

/-- The value of a decimal digit of any script; superscripts and fractions have none. -/
def decimalValue? (c : Char) : Option Nat :=
  if c.toNat < 0x80 then
    if c.isDigit then some (c.toNat - '0'.toNat) else none
  else
    let starts := fun (first : Nat) => first ≤ c.toNat && c.toNat < first + 10
    (Table.decimalZeros.find? starts).map (c.toNat - ·)

end Strips.Text
