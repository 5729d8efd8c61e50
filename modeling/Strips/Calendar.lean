/-!
# Dates

An instant is a number of microseconds since the beginning of 1970, negative before it. A date of
the Gregorian calendar is computed from the number of days, counted from the first of March of the
year zero, so that a leap day is the last day of its year.
-/

namespace Strips

/-- Microseconds since the beginning of 1970. -/
abbrev Instant : Type := Int

namespace Calendar

/-- Year, month and day. -/
structure Date where
  year : Int
  month : Nat
  day : Nat
  deriving DecidableEq, Repr

/-- Days from the first of March of the year zero to the beginning of 1970. -/
def epochShift : Int := 719468

/-- The date of a day, counted from the beginning of 1970. -/
def dateOfDay (day : Int) : Date :=
  let z := day + epochShift
  let era := z.fdiv 146097
  let dayOfEra := (z.fmod 146097).toNat
  let yearOfEra := (dayOfEra - dayOfEra / 1460 + dayOfEra / 36524 - dayOfEra / 146096) / 365
  let dayOfYear := dayOfEra - (365 * yearOfEra + yearOfEra / 4 - yearOfEra / 100)
  let shifted := (5 * dayOfYear + 2) / 153
  let day := dayOfYear - (153 * shifted + 2) / 5 + 1
  let month := if shifted < 10 then shifted + 3 else shifted - 9
  ⟨yearOfEra + era * 400 + (if month ≤ 2 then 1 else 0), month, day⟩

/-- The day of a date, counted from the beginning of 1970. -/
def dayOfDate (d : Date) : Int :=
  let year := if d.month ≤ 2 then d.year - 1 else d.year
  let era := year.fdiv 400
  let yearOfEra := (year.fmod 400).toNat
  let shifted := if d.month ≤ 2 then d.month + 9 else d.month - 3
  let dayOfYear := (153 * shifted + 2) / 5 + d.day - 1
  let dayOfEra := yearOfEra * 365 + yearOfEra / 4 - yearOfEra / 100 + dayOfYear
  era * 146097 + dayOfEra - epochShift

/-- A number with at least `width` digits. -/
def padded (width n : Nat) : String :=
  let text := toString n
  String.ofList (List.replicate (width - text.length) '0') ++ text

/-- Microseconds of a day. -/
def dayLength : Int := 86400000000

/-- Date and time of day as `YYYYMMDD_HHMMSS`, fractions of a second cut off. -/
def stamp (t : Instant) : String :=
  let date := dateOfDay (t.fdiv dayLength)
  let second := (t.fmod dayLength).toNat / 1000000
  toString date.year ++ padded 2 date.month ++ padded 2 date.day ++ "_" ++
    padded 2 (second / 3600) ++ padded 2 (second / 60 % 60) ++ padded 2 (second % 60)

/-- The value of decimal digits. -/
def valueOf (digits : List Char) : Nat := digits.foldl (fun n c => 10 * n + (c.toNat - 48)) 0

/-- The value of two digits, those with the given number among pairs. -/
def pairAt (digits : List Char) (i : Nat) : Nat := valueOf ((digits.drop (2 * i)).take 2)

/-- The instant of a date and a time of day in the form `YYYY-MM-DDTHH:MM:SS.ffffff`. The time, or
its last parts, may be missing, and so may the marks between digits; what follows the sixth digit of
a fraction, and a time zone, do not count. -/
def ofIso (text : String) : Instant :=
  let dated := text.toList.takeWhile fun c => c.isDigit || c = '-'
  let date := dated.filter Char.isDigit
  let day := dayOfDate ⟨valueOf (date.take 4), pairAt date 2, pairAt date 3⟩
  let time := (text.toList.drop (dated.length + 1)).takeWhile fun c => c ∉ ['Z', '+', '-']
  let whole := time.takeWhile fun c => c ≠ '.' ∧ c ≠ ','
  let fraction := (time.drop (whole.length + 1)).take 6
  let clock := whole.filter Char.isDigit
  let seconds := pairAt clock 0 * 3600 + pairAt clock 1 * 60 + pairAt clock 2
  let micros := valueOf (fraction ++ List.replicate (6 - fraction.length) '0')
  day * dayLength + (seconds * 1000000 + micros : Nat)

end Calendar

end Strips
