import SnapshotLedger.Calendar.Reading

/-!
# Timestamps of the Internet

The profile of RFC 3339: a date, one separating character, a time with an optional fraction, and an offset.
Reading keeps the offset; writing goes over to universal time, for which only the years from 0 to 9999 have a
form, and drops the zeros that end the fraction.

A second numbered 60 is accepted where a leap second can be, at the end of a month in universal time, and stands
for the last nanosecond before it.
-/

namespace SnapshotLedger.Timestamp

open DateFault

/-- A fraction of a second, after its point: the first nine digits count. -/
def readFraction (s : List Char) : Except DateFault (Nat × List Char) :=
  let ds := s.takeWhile Char.isDigit
  if ds.isEmpty then .error (component .subsecond)
  else
    let kept := ds.take 9
    .ok (Text.digitsValue (kept ++ List.replicate (9 - kept.length) '0'), s.dropWhile Char.isDigit)

/-- An offset from universal time in seconds. -/
def readOffset (s : List Char) : Except DateFault (Int × List Char) := do
  match s with
  | 'Z' :: r | 'z' :: r => .ok (0, r)
  | sign :: r =>
    if sign != '+' && sign != '-' then .error (component .offsetHour)
    let (hours, r) ← readDigits .offsetHour 2 r
    if 23 < hours then .error (component .offsetHour)
    let r ← readLiteral ':' r
    let (minutes, r) ← readDigits .offsetMinute 2 r
    if 59 < minutes then .error (range .offsetMinute)
    let seconds : Int := hours * 3600 + minutes * 60
    .ok (if sign = '-' then -seconds else seconds, r)
  | [] => .error (component .offsetHour)

/-- The text behind the character that separates the date from the time. Any character will do, but one outside
ASCII leaves bytes behind that are no hour. -/
def readSeparator (s : List Char) : Except DateFault (List Char) :=
  match s with
  | [] => .error (component .separator)
  | c :: r => if c.utf8Size = 1 then .ok r else .error (component .hour)

/-- Whether an instant is the last nanosecond of a month in universal time. -/
def endsMonth (t : Timestamp) : Bool :=
  let r := t.utcClock
  t.hasUtcDate && r.hour = 23 && r.minute = 59 && r.second = 59 && r.nanosecond = 999999999 &&
    r.date.day = Date.monthLength r.date.year r.date.month

/-- The timestamp that a clock shows at an offset, unless a part of it is out of range. -/
def ofParts (r : ClockReading) (offset : Int) : Except DateFault Timestamp := do
  if 12 < r.date.month then .error (range .month)
  if !r.date.isDay then .error (range .day)
  if 23 < r.hour then .error (range .hour)
  if 59 < r.minute then .error (range .minute)
  if r.second < 60 then .ok (ofClock r offset)
  else
    let last := ofClock { r with second := 59, nanosecond := 999999999 } offset
    if r.second = 60 && last.endsMonth then .ok last else .error (range .second)

/-- The timestamp that a text holds. -/
def readRfc3339 (text : String) : Except DateFault Timestamp := do
  let (year, s) ← readDigits .year 4 text.toList
  let s ← readLiteral '-' s
  let (month, s) ← readDigits .month 2 s
  if month = 0 then .error (component .month)
  let s ← readLiteral '-' s
  let (day, s) ← readDigits .day 2 s
  let s ← readSeparator s
  let (hour, s) ← readDigits .hour 2 s
  let s ← readLiteral ':' s
  let (minute, s) ← readDigits .minute 2 s
  let s ← readLiteral ':' s
  let (second, s) ← readDigits .second 2 s
  let (nanosecond, s) ← match s with
    | '.' :: r => readFraction r
    | _ => .ok (0, s)
  let (offset, s) ← readOffset s
  if !s.isEmpty then .error trailing
  ofParts ⟨⟨year, month, day⟩, hour, minute, second, nanosecond⟩ offset

/-- Why a timestamp has no text in universal time. -/
inductive UtcFault where
  /-- The year in universal time is before the year 0. -/
  | year
  /-- The date in universal time is beyond the calendar. -/
  | beyondCalendar
  deriving DecidableEq, Repr

/-- A fraction of a second with its point, without the zeros that end it; nothing for a whole second. -/
def fractionChars (nanosecond : Nat) : List Char :=
  if nanosecond = 0 then []
  else '.' :: ((Text.padded 9 nanosecond).reverse.dropWhile (· = '0')).reverse

/-- The instant in universal time. -/
def rfc3339 (t : Timestamp) : Except UtcFault String :=
  let r := t.utcClock
  if !t.hasUtcDate then .error .beyondCalendar
  else if r.date.year < 0 then .error .year
  else .ok (String.ofList (r.date.chars ++ 'T' :: r.timeChars ++ fractionChars r.nanosecond ++ ['Z']))

end SnapshotLedger.Timestamp
