import SnapshotLedger.Calendar.Reading
import SnapshotLedger.Calendar.Rfc3339

/-!
# Stored instants

The time at which a snapshot was created is stored as text of one length, in universal time and cut to the
microsecond, so that the order of the texts is the order of the instants.
-/

namespace SnapshotLedger.Timestamp

open DateFault

/-- The stored form of an instant; none beyond the calendar. -/
def stored? (t : Timestamp) : Option String :=
  let r := t.utcClock
  if t.hasUtcDate then
    some (String.ofList (r.date.chars ++ 'T' :: r.timeChars ++ '.' :: Text.padded 6 (r.nanosecond / 1000) ++ ['Z']))
  else none

/-- The instant that a stored text holds. -/
def readStored (text : String) : Except DateFault Timestamp := do
  let (date, s) ← Date.readFront text.toList
  let s ← readLiteral 'T' s
  let (hour, s) ← readDigits .hour 2 s
  let s ← readLiteral ':' s
  let (minute, s) ← readDigits .minute 2 s
  let s ← readLiteral ':' s
  let (second, s) ← readDigits .second 2 s
  let s ← readLiteral '.' s
  let (micros, s) ← readDigits .subsecond 6 s
  let s ← readLiteral 'Z' s
  if !s.isEmpty then .error trailing
  if !date.isDay then .error (range .day)
  if 23 < hour then .error (range .hour)
  if 59 < minute then .error (range .minute)
  if 59 < second then .error (range .second)
  .ok (ofClock ⟨date, hour, minute, second, micros * 1000⟩ 0)

/-- The instant that a stored text holds, if it holds one. -/
def ofStored? (text : String) : Option Timestamp := (readStored text).toOption

end SnapshotLedger.Timestamp
