import Strips.Decimal.Binary64

/-!
# Shortest decimal text

The shortest text of a number is the one with the fewest digits among the decimals that read back as
it, and of these the nearest. The decimals that read back are those between the midpoints to the
neighbouring numbers; the midpoints themselves count when the mantissa is even.

On a decimal grid that has a point in this interval, one of the two points next to the number is in
it too, so the search tries these two for one digit, two digits and so on.
-/

namespace Strips.Decimal

/-- The number of decimal digits of a natural number. -/
def digitCount (n : Nat) : Nat := (Nat.toDigits 10 n).length

/-- The power of ten of the first digit of a positive fraction. -/
def leadingExponent (num den : Nat) : Int :=
  let d : Int := (digitCount num : Int) - digitCount den
  let reaches :=
    if 0 ≤ d then den * Nat.pow 10 d.toNat ≤ num else den ≤ num * Nat.pow 10 (-d).toNat
  if reaches then d else d - 1

/-- `digits * 10 ^ exponent`. -/
structure Digits where
  digits : Nat
  exponent : Int
  deriving DecidableEq, Repr

/-- Whether a decimal lies in the interval of those that read back as a number. -/
def readsBack (x : Binary64) (d : Digits) : Bool :=
  let below := if x.mantissa = Nat.pow 2 52 ∧ Binary64.minExponent < x.exponent then 1 else 2
  let quarter := { x with exponent := x.exponent - 2 }
  let (lowNum, den) := { quarter with mantissa := 4 * x.mantissa - below }.ratio
  let (highNum, _) := { quarter with mantissa := 4 * x.mantissa + 2 }.ratio
  let (num, unit) :=
    if 0 ≤ d.exponent then (d.digits * Nat.pow 10 d.exponent.toNat, 1)
    else (d.digits, Nat.pow 10 (-d.exponent).toNat)
  if x.mantissa % 2 = 0 then lowNum * unit ≤ num * den && num * den ≤ highNum * unit
  else lowNum * unit < num * den && num * den < highNum * unit

/-- The decimal of `count` digits that reads back, the nearer one if there are two. -/
def ofCount? (x : Binary64) (leading : Int) (count : Nat) : Option Digits :=
  let exponent := leading - count + 1
  let (num, den) := x.ratio
  let (a, b) :=
    if 0 ≤ exponent then (num, den * Nat.pow 10 exponent.toNat)
    else (num * Nat.pow 10 (-exponent).toNat, den)
  let low : Digits := ⟨a / b, exponent⟩
  let high : Digits := ⟨a / b + 1, exponent⟩
  let nearest : Digits := ⟨roundHalfEven a b, exponent⟩
  match readsBack x low, readsBack x high with
  | true, true => some nearest
  | true, false => some low
  | false, true => some high
  | false, false => none

/-- The fewest digits that read back; seventeen always do. -/
def fewest (x : Binary64) (leading : Int) : Nat → Digits
  | 0 => (ofCount? x leading 17).getD ⟨0, 0⟩
  | tries + 1 => (ofCount? x leading (17 - tries)).getD (fewest x leading tries)

/-- How many leading zeros and how many digits before the point are written out; beyond that the
text has an exponent. -/
structure Style where
  leadingZeros : Nat
  wholeDigits : Nat
  deriving DecidableEq, Repr

/-- The digits with the point and the exponent in place; at least one digit follows the point. -/
def layout (style : Style) (d : Digits) : String :=
  let text := toString d.digits
  let first := d.exponent + text.length - 1
  if -(style.leadingZeros : Int) ≤ first && first < style.wholeDigits then
    if first < 0 then "0." ++ String.ofList (List.replicate (-first - 1).toNat '0') ++ text
    else
      let whole := text.toList.take (first.toNat + 1)
      let zeros := List.replicate (first.toNat + 1 - whole.length) '0'
      let rest := text.toList.drop (first.toNat + 1)
      String.ofList (whole ++ zeros) ++ "." ++ (if rest.isEmpty then "0" else String.ofList rest)
  else
    let rest := text.toList.drop 1
    let fraction := if rest.isEmpty then "" else "." ++ String.ofList rest
    let sign := if first < 0 then "-" else "+"
    let size := toString first.natAbs
    let padded := if size.length < 2 then "0" ++ size else size
    String.ofList (text.toList.take 1) ++ fraction ++ "e" ++ sign ++ padded

/-- The digits of a number without zeros at the end. -/
def trim : Nat → Digits → Digits
  | 0, d => d
  | fuel + 1, d =>
    if d.digits ≠ 0 && d.digits % 10 = 0 then trim fuel ⟨d.digits / 10, d.exponent + 1⟩ else d

/-- The shortest text of a number. -/
def shortest (style : Style) (x : Binary64) : String :=
  let sign := if x.negative then "-" else ""
  if x.mantissa = 0 then sign ++ "0.0"
  else
    let (num, den) := x.ratio
    sign ++ layout style (trim 17 (fewest x (leadingExponent num den) 17))

/-- Fixed-point text with a number of places, the exact value rounded with ties to even. -/
def fixed (places : Nat) (x : Binary64) : String :=
  let (num, den) := x.ratio
  let scaled := roundHalfEven (num * Nat.pow 10 places) den
  let fraction := toString (scaled % Nat.pow 10 places)
  let padded := String.ofList (List.replicate (places - fraction.length) '0') ++ fraction
  let sign := if x.negative then "-" else ""
  if x.isInfinite then sign ++ "inf"
  else sign ++ toString (scaled / Nat.pow 10 places) ++ (if places = 0 then "" else "." ++ padded)

end Strips.Decimal
