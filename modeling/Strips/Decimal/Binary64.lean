/-!
# Binary floating-point numbers

Numbers of the 64-bit binary format as a sign, a mantissa and a power of two, with rounding of
fractions in exact arithmetic on natural numbers. A fraction is rounded to the nearest number, and a
tie goes to the even mantissa. A number with a greater exponent than the format has is infinite.

## Main definitions

* `roundHalfEven` – a quotient rounded to the nearest whole number.
* `Binary64.ofRatio` – a fraction rounded to the format.
-/

namespace Strips

/-- A quotient rounded to the nearest whole number, ties to the even one. -/
def roundHalfEven (num den : Nat) : Nat :=
  let q := num / den
  let r := num % den
  if 2 * r < den then q
  else if den < 2 * r then q + 1
  else if q % 2 = 0 then q else q + 1

/-- A number: `mantissa * 2 ^ exponent`, negative if the sign says so. -/
structure Binary64 where
  negative : Bool := false
  mantissa : Nat := 0
  exponent : Int := 0
  deriving DecidableEq, Repr, Inhabited

namespace Binary64

/-- Least exponent of the format. -/
def minExponent : Int := -1074

/-- Greatest exponent of the format. -/
def maxExponent : Int := 971

/-- Whether a number is beyond all finite ones. -/
def isInfinite (x : Binary64) : Bool := maxExponent < x.exponent

/-- `num / (den * 2 ^ exponent)` as a fraction. -/
def scaleDown (num den : Nat) (exponent : Int) : Nat × Nat :=
  if 0 ≤ exponent then (num, den * Nat.pow 2 exponent.toNat)
  else (num * Nat.pow 2 (-exponent).toNat, den)

/-- The magnitude of the number nearest to a fraction. -/
def ofPositiveRatio (num den : Nat) : Binary64 :=
  let guess : Int := (Nat.log2 num : Int) - Nat.log2 den - 53
  let (a, b) := scaleDown num den guess
  let exponent := max (if Nat.pow 2 53 ≤ a / b then guess + 1 else guess) minExponent
  let (a, b) := scaleDown num den exponent
  let mantissa := roundHalfEven a b
  if mantissa = Nat.pow 2 53 then ⟨false, Nat.pow 2 52, exponent + 1⟩
  else ⟨false, mantissa, exponent⟩

/-- The number nearest to a fraction. -/
def ofRatio (num : Int) (den : Nat) : Binary64 :=
  if num = 0 then {}
  else { ofPositiveRatio num.natAbs den with negative := num < 0 }

/-- The magnitude as a fraction. -/
def ratio (x : Binary64) : Nat × Nat :=
  if 0 ≤ x.exponent then (x.mantissa * Nat.pow 2 x.exponent.toNat, 1)
  else (x.mantissa, Nat.pow 2 (-x.exponent).toNat)

/-- The product with a whole number, rounded to the format. -/
def scale (x : Binary64) (factor : Nat) : Binary64 :=
  if x.mantissa = 0 then x
  else
    let (num, den) := x.ratio
    { ofPositiveRatio (num * factor) den with negative := x.negative }

end Binary64

end Strips
