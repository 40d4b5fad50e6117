import SnapshotLedger.Calendar.Timestamp
import SnapshotLedger.Run
import SnapshotLedger.Json.Decode
import SnapshotLedger.Rendered.Encoding
import SnapshotLedger.SnapshotId

/-!
# Snapshots

What is known about the fields of a run: its identity, the rendered and redacted fields, those of its pod if it
had one, and the time at which this was written down. As JSON, the time is an array of its parts: the year, the
day of the year, the time of the day, and the offset in hours, minutes and seconds that all have its sign.
-/

namespace SnapshotLedger

/-- The rendered fields of a run. -/
structure Snapshot where
  id : SnapshotId
  identity : Run
  fields : Fields
  podSpec : Option Fields
  createdAt : Timestamp
  deriving Inhabited

namespace Timestamp

/-- The parts of a timestamp as JSON. -/
def toJson (t : Timestamp) : Json :=
  let r := t.ownClock
  .array ([r.date.year, r.date.dayOfYear + 1, r.hour, r.minute, r.second, r.nanosecond, t.offset.tdiv 3600,
    (t.offset.tdiv 60).tmod 60, t.offset.tmod 60].map .integer)

/-- One part of a timestamp; a missing one is asked for by its name. -/
def part {α : Type} (items : List Json) (place : Nat) (name : String) (d : Decoder α) : Except DecodeError α :=
  match items[place]? with
  | some v => d v
  | none => .error (.other ("expected " ++ name))

/-- Refuses a part that is out of range. -/
def inRange (name : String) (value least greatest : Int) : Except DecodeError Unit :=
  if least ≤ value && value ≤ greatest then .ok ()
    else .error (.other ("invalid " ++ name ++ ", expected an in-range value"))

/-- A part with the sign of a larger one, unless that is zero. -/
def withSignOf (larger value : Int) : Int := if larger = 0 then value else larger.sign * value.natAbs

/-- The timestamp that an array of its parts stands for. -/
def decode : Decoder Timestamp
  | .array items => do
    let year ← part items 0 "year" (Decoder.signed 32)
    let day ← part items 1 "day of year" (Decoder.unsigned 16)
    let hour ← part items 2 "hour" (Decoder.unsigned 8)
    let minute ← part items 3 "minute" (Decoder.unsigned 8)
    let second ← part items 4 "second" (Decoder.unsigned 8)
    let nanosecond ← part items 5 "nanosecond" (Decoder.unsigned 32)
    let hours ← part items 6 "offset hours" (Decoder.signed 8)
    let minutes ← part items 7 "offset minutes" (Decoder.signed 8)
    let seconds ← part items 8 "offset seconds" (Decoder.signed 8)
    inRange "year" year (-furthestYear) furthestYear
    inRange "ordinal" day 1 (Date.yearLength year)
    inRange "hour" hour 0 23
    inRange "minute" minute 0 59
    inRange "second" second 0 59
    inRange "nanosecond" nanosecond 0 999999999
    inRange "offset hour" hours (-25) 25
    inRange "offset minute" minutes (-59) 59
    inRange "offset second" seconds (-59) 59
    if 9 < items.length then .error (.wrongLength items.length "fewer elements in array")
    let minutes := withSignOf hours minutes
    let seconds := withSignOf (if hours = 0 then minutes else hours) seconds
    .ok (ofClock ⟨.ofDayOfYear year (day - 1), hour, minute, second, nanosecond⟩
      (hours * 3600 + minutes * 60 + seconds))
  | v => .error (.wrongType v "an `OffsetDateTime`")

end Timestamp

namespace Fields

/-- The fields that JSON stands for. -/
def decode : Decoder Fields := fun v =>
  match ofJson? v with
  | some fields => .ok fields
  | none => .error (.wrongType v "a map")

end Fields

/-- The identifier that JSON stands for. -/
def SnapshotId.decode : Decoder SnapshotId := fun v => do
  match SnapshotId.ofText (← Decoder.string v) with
  | .ok i => .ok i
  | .error fault => .error (.other fault.message)

namespace Snapshot

/-- The snapshot as a record. -/
def shape : RecordShape where
  name := "RenderedSnapshot"
  fields := [("snapshot_id", SnapshotId.decode.check), ("identity", Run.decode.check),
    ("rendered_fields", Fields.decode.check), ("pod_spec_snapshot", Fields.decode.optional.check),
    ("created_at", Timestamp.decode.check)]

/-- The snapshot that JSON stands for. -/
def decode : Decoder Snapshot := fun v => do
  let ms ← shape.read v
  let id ← Decoder.required SnapshotId.decode "snapshot_id" ms
  let identity ← Decoder.required Run.decode "identity" ms
  let fields ← Decoder.required Fields.decode "rendered_fields" ms
  let podSpec ← Decoder.possible Fields.decode "pod_spec_snapshot" ms
  let createdAt ← Decoder.required Timestamp.decode "created_at" ms
  .ok ⟨id, identity, fields, podSpec, createdAt⟩

/-- Fields or null. -/
def optionalToJson : Option Fields → Json
  | some fields => Fields.toJson fields
  | none => .null

/-- The snapshot as JSON. -/
def toJson (s : Snapshot) : Json :=
  .object [("snapshot_id", .string s.id.text), ("identity", s.identity.toJson),
    ("rendered_fields", Fields.toJson s.fields), ("pod_spec_snapshot", optionalToJson s.podSpec),
    ("created_at", s.createdAt.toJson)]

end Snapshot

end SnapshotLedger
