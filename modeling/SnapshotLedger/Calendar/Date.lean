import SnapshotLedger.Text.Ascii

/-!
# Dates

Days of the Gregorian calendar, extended over all years; the year before the year 1 is the year 0. Days are
numbered from the first of January 1970. The year of a day is found from the mean length of a year, which misses
it by at most one, and the month by passing over the months before it.
-/

namespace SnapshotLedger

/-- A day of the calendar. -/
structure Date where
  year : Int
  month : Nat
  day : Nat
  deriving DecidableEq, Repr, Inhabited

namespace Date

/-- Whether a year has a leap day. -/
def isLeapYear (year : Int) : Bool := year % 4 = 0 && (year % 100 != 0 || year % 400 = 0)

/-- The lengths of the months of a year. -/
def monthLengths (year : Int) : List Nat :=
  [31, if isLeapYear year then 29 else 28, 31, 30, 31, 30, 31, 31, 30, 31, 30, 31]

/-- The length of a month, counted from one. -/
def monthLength (year : Int) (month : Nat) : Nat := ((monthLengths year)[month - 1]?).getD 0

/-- The length of a year. -/
def yearLength (year : Int) : Nat := if isLeapYear year then 366 else 365

/-- Whether a date names a day. -/
def isDay (d : Date) : Bool := 1 ≤ d.month && d.month ≤ 12 && 1 ≤ d.day && d.day ≤ monthLength d.year d.month

/-- The days from the start of the year 0 to the start of a year. -/
def daysBeforeYear (year : Int) : Int := 365 * year + (year + 3) / 4 - (year + 99) / 100 + (year + 399) / 400

/-- The number of the first day of the year 0, without its sign. -/
def epochDays : Int := 719528

/-- The days of the year before a month. -/
def daysBeforeMonth (year : Int) (month : Nat) : Nat := ((monthLengths year).take (month - 1)).foldl (· + ·) 0

/-- The place of the day in its year, counted from zero. -/
def dayOfYear (d : Date) : Nat := daysBeforeMonth d.year d.month + (d.day - 1)

/-- The number of the day. -/
def dayNumber (d : Date) : Int := daysBeforeYear d.year + d.dayOfYear - epochDays

/-- The month and the day that a number of days behind the start of the first of some months falls on. -/
def monthAndDay (month days : Nat) : List Nat → Nat × Nat
  | [] => (month, days + 1)
  | length :: r => if days < length then (month, days + 1) else monthAndDay (month + 1) (days - length) r

/-- The date of a day given by its year and its place there, counted from zero. -/
def ofDayOfYear (year : Int) (days : Nat) : Date :=
  let p := monthAndDay 1 days (monthLengths year)
  ⟨year, p.1, p.2⟩

/-- The year that a number of days behind the start of the year 0 falls in. -/
def yearOfDays (n : Int) : Int :=
  let y := 400 * n / 146097
  if n < daysBeforeYear y then y - 1 else if daysBeforeYear (y + 1) ≤ n then y + 1 else y

/-- The date of a day given by its number. -/
def ofDayNumber (n : Int) : Date :=
  let n := n + epochDays
  let year := yearOfDays n
  ofDayOfYear year (n - daysBeforeYear year).toNat

/-- The digits of a year, four at least, behind a minus sign for the years before the year 0. -/
def yearText (year : Int) : List Char :=
  if year < 0 then '-' :: Text.padded 4 year.natAbs else Text.padded 4 year.natAbs

/-- The date with its parts from the year on, with hyphens between them. -/
def chars (d : Date) : List Char := yearText d.year ++ '-' :: Text.padded 2 d.month ++ '-' :: Text.padded 2 d.day

/-- The date as text. -/
def text (d : Date) : String := String.ofList d.chars

end Date

end SnapshotLedger
