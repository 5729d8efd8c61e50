import Strips.Text.CharClass

/-!
# Reading whole numbers

A whole number may stand between blanks, start with a sign and have single underscores between its
digits, which may be decimal digits of any script. It may have any number of digits: readers that
refuse a number for its length alone, as some do from a few thousand digits on, are not followed.
-/

namespace Strips.Text

/-- Blanks allowed around a number: white space, the four information separators left out. -/
def isNumberBlank (c : Char) : Bool := isSpace c && !inRanges [(0x1C, 0x1F)] c

/-- The number written by digits, most significant first, after `acc`; `afterDigit` says whether an
underscore may come next. -/
def readDigits (acc : Nat) (afterDigit : Bool) : List Char → Option Nat
  | [] => if afterDigit then some acc else none
  | c :: rest =>
    if c = '_' then
      if afterDigit then readDigits acc false rest else none
    else match decimalValue? c with
      | some d => readDigits (acc * 10 + d) true rest
      | none => none

/-- The text without the blanks around it. -/
def trimNumber (s : List Char) : List Char :=
  ((s.dropWhile isNumberBlank).reverse.dropWhile isNumberBlank).reverse

/-- Read a whole number, of any number of digits. -/
def readInt? (s : String) : Option Int :=
  match trimNumber s.toList with
  | '+' :: digits => (readDigits 0 false digits).map Int.ofNat
  | '-' :: digits => (readDigits 0 false digits).map fun n => -Int.ofNat n
  | digits => (readDigits 0 false digits).map Int.ofNat

end Strips.Text
