import SnapshotLedger.Calendar.Timestamp

/-!
# Reading dates and times

The parts of dates and times have a fixed number of digits. A reader takes a part off the front of a text and
names the first part that it cannot read (`DateFault.component`); a part that was read may still be out of range
(`DateFault.range`).
-/

namespace SnapshotLedger

/-- The parts of a date, a time and an offset. -/
inductive DatePart where
  | year
  | month
  | day
  | separator
  | hour
  | minute
  | second
  | subsecond
  | offsetHour
  | offsetMinute
  deriving DecidableEq, Repr

/-- The name of a part. -/
def DatePart.name : DatePart → String
  | year => "year"
  | month => "month"
  | day => "day"
  | separator => "separator"
  | hour => "hour"
  | minute => "minute"
  | second => "second"
  | subsecond => "subsecond"
  | offsetHour => "offset hour"
  | offsetMinute => "offset minute"

/-- Why a text is no date or no timestamp. -/
inductive DateFault where
  /-- A part that has not the form of one. -/
  | component (part : DatePart)
  /-- A character other than the one required between two parts. -/
  | literal
  /-- Text behind the last part. -/
  | trailing
  /-- A part that has the right form and no meaning. -/
  | range (part : DatePart)
  deriving DecidableEq, Repr

/-- The fault in words. -/
def DateFault.message : DateFault → String
  | component p => s!"the '{p.name}' component could not be parsed"
  | literal => "a character literal was not valid"
  | trailing => "unexpected trailing characters; the end of input was expected"
  | range p => s!"{p.name} was not in range"

/-- The explanations of the fault: that the text cannot be read, why, and for a part out of range which one it
is. They all have the same words. -/
def DateFault.explanations (f : DateFault) : List String :=
  match f with
  | range _ => [f.message, f.message, f.message]
  | _ => [f.message, f.message]

namespace DateFault

/-- A part of exactly so many digits at the front of a text. -/
def readDigits (part : DatePart) (count : Nat) (s : List Char) : Except DateFault (Nat × List Char) :=
  let ds := s.take count
  if ds.length = count && ds.all Char.isDigit then .ok (Text.digitsValue ds, s.drop count) else .error (component part)

/-- The text behind a required character. -/
def readLiteral (c : Char) : List Char → Except DateFault (List Char)
  | [] => .error literal
  | d :: r => if d = c then .ok r else .error literal

/-- A year of four digits, with or without a sign. -/
def readSignedYear (s : List Char) : Except DateFault (Int × List Char) := do
  match s with
  | '-' :: r => do
    let (n, rest) ← readDigits .year 4 r
    .ok (-(n : Int), rest)
  | '+' :: r => do
    let (n, rest) ← readDigits .year 4 r
    .ok (n, rest)
  | _ => do
    let (n, rest) ← readDigits .year 4 s
    .ok (n, rest)

/-- A month, a hyphen and a day, neither of which may be zero; the month is one of the twelve. -/
def readMonthDay (s : List Char) : Except DateFault ((Nat × Nat) × List Char) := do
  let (month, s) ← readDigits .month 2 s
  if month = 0 || 12 < month then .error (component .month)
  let s ← readLiteral '-' s
  let (day, s) ← readDigits .day 2 s
  if day = 0 then .error (component .day)
  .ok ((month, day), s)

end DateFault

open DateFault in
/-- A date at the front of a text; whether the month has the day is left open. -/
def Date.readFront (s : List Char) : Except DateFault (Date × List Char) := do
  let (year, s) ← readSignedYear s
  let s ← readLiteral '-' s
  let ((month, day), s) ← readMonthDay s
  .ok (⟨year, month, day⟩, s)

/-- The date that a text holds. -/
def Date.read (s : String) : Except DateFault Date := do
  let (date, rest) ← Date.readFront s.toList
  if !rest.isEmpty then .error .trailing
  if !date.isDay then .error (.range .day)
  .ok date

end SnapshotLedger
