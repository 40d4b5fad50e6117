import SnapshotLedger.Calendar.Date

/-!
# Instants

An instant is a number of nanoseconds since the start of 1970 in universal time. A timestamp is an instant
together with the offset from universal time under which it was given; two timestamps of one instant may show
different dates and times. Readers are shown the date and the time at the timestamp's own offset
(`Timestamp.display`).
-/

namespace SnapshotLedger

/-- A date and a time of the day, as a clock shows them. -/
structure ClockReading where
  date : Date
  hour : Nat
  minute : Nat
  second : Nat
  nanosecond : Nat
  deriving DecidableEq, Repr, Inhabited

/-- An instant and the offset under which it was given. -/
structure Timestamp where
  /-- The nanoseconds since the start of 1970 in universal time. -/
  nanos : Int
  /-- The seconds by which clocks at the place are ahead of universal time. -/
  offset : Int
  deriving DecidableEq, Repr, Inhabited

namespace ClockReading

/-- The nanoseconds in a second. -/
def nanosPerSecond : Int := 1000000000

/-- The seconds in a day. -/
def secondsPerDay : Int := 86400

/-- The seconds from the start of 1970 to what the clock shows. -/
def seconds (r : ClockReading) : Int := r.date.dayNumber * secondsPerDay + r.hour * 3600 + r.minute * 60 + r.second

/-- The nanoseconds from the start of 1970 to what the clock shows. -/
def nanos (r : ClockReading) : Int := r.seconds * nanosPerSecond + r.nanosecond

/-- What a clock shows a number of nanoseconds after it has shown the start of 1970. -/
def ofNanos (n : Int) : ClockReading :=
  let seconds := n / nanosPerSecond
  let inDay := (seconds % secondsPerDay).toNat
  ⟨.ofDayNumber (seconds / secondsPerDay), inDay / 3600, inDay / 60 % 60, inDay % 60, (n % nanosPerSecond).toNat⟩

/-- The time of the day with colons between its parts. -/
def timeChars (r : ClockReading) : List Char :=
  Text.padded 2 r.hour ++ ':' :: Text.padded 2 r.minute ++ ':' :: Text.padded 2 r.second

end ClockReading

namespace Timestamp

/-- The timestamp that a clock ahead of universal time by `offset` seconds shows. -/
def ofClock (r : ClockReading) (offset : Int) : Timestamp := ⟨r.nanos - offset * ClockReading.nanosPerSecond, offset⟩

/-- What clocks show at the timestamp's own offset. -/
def ownClock (t : Timestamp) : ClockReading := .ofNanos (t.nanos + t.offset * ClockReading.nanosPerSecond)

/-- What clocks show in universal time. -/
def utcClock (t : Timestamp) : ClockReading := .ofNanos t.nanos

/-- The same instant in universal time. -/
def toUtc (t : Timestamp) : Timestamp := ⟨t.nanos, 0⟩

/-- The seconds since the start of 1970, rounded down. -/
def unixSeconds (t : Timestamp) : Int := t.nanos / ClockReading.nanosPerSecond

/-- The furthest year, before and after the year 0, whose days have dates. -/
def furthestYear : Nat := 9999

/-- Whether the instant has a date in universal time. -/
def hasUtcDate (t : Timestamp) : Bool := t.utcClock.date.year.natAbs ≤ furthestYear

/-! ## Timestamps for readers

A timestamp is shown with the date and the time of its own offset, a blank between them, and the offset behind
them. Microseconds are shown when the second is not a whole one; what is below a microsecond is cut off. -/

/-- An offset in hours and minutes with its sign, which is a minus for every negative offset. -/
def offsetChars (offset : Int) : List Char :=
  let n := offset.natAbs
  (if offset < 0 then '-' else '+') :: Text.padded 2 (n / 3600) ++ ':' :: Text.padded 2 (n / 60 % 60)

/-- The microseconds with their point, or nothing. -/
def microsecondChars (nanosecond : Nat) : List Char :=
  if nanosecond = 0 then [] else '.' :: Text.padded 6 (nanosecond / 1000)

/-- The timestamp for readers. -/
def display (t : Timestamp) : String :=
  let r := t.ownClock
  String.ofList (r.date.chars ++ ' ' :: r.timeChars ++ microsecondChars r.nanosecond ++ offsetChars t.offset)

end Timestamp

end SnapshotLedger
