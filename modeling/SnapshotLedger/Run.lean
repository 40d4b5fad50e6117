import SnapshotLedger.Calendar.Rfc3339
import SnapshotLedger.Json.Decode
import SnapshotLedger.Text.Search

/-!
# Identities of runs

A snapshot belongs to one run of a task of a workflow. The run key tells the runs of a task apart; it is an
identifier or a logical date in universal time. A run that is one of several expanded from one task has a map
index as well, and all other runs are stored with the index minus one.
-/

namespace SnapshotLedger

/-- The identity of a run. -/
structure Run where
  workflow : String
  task : String
  runKey : String
  mapIndex : Option Nat := none
  deriving DecidableEq, Repr, Inhabited

/-- The parts of an identity that may not be blank. -/
inductive Run.Part where
  | workflow
  | task
  | runKey
  deriving DecidableEq, Repr

/-- The name of a part. -/
def Run.Part.name : Run.Part → String
  | workflow => "workflow_id"
  | task => "task_id"
  | runKey => "run_key"

namespace Run

/-- The identity for readers. -/
def display (i : Run) : String :=
  let index := match i.mapIndex with
    | some n => "[" ++ toString n ++ "]"
    | none => ""
  i.workflow ++ "." ++ i.task ++ "@" ++ i.runKey ++ index

/-- The map index stored for runs without one. -/
def unmapped : Int := -1

/-- The greatest map index. -/
def greatestIndex : Int := 4294967295

/-- The map index as it is stored. -/
def storedIndex (i : Run) : Int :=
  match i.mapIndex with
  | some n => n
  | none => unmapped

/-- The first part that is blank. -/
def blankPart? (i : Run) : Option Run.Part :=
  if Text.isBlank i.workflow then some .workflow
  else if Text.isBlank i.task then some .task
  else if Text.isBlank i.runKey then some .runKey
  else none

/-- The run key of a logical date. -/
def runKeyOf (logicalDate : Timestamp) : Except Timestamp.UtcFault String := logicalDate.rfc3339

/-- Whether an identity stands before another or is the same: by workflow, task and run key, and runs without a
map index first. -/
def before (i j : Run) : Bool :=
  if i.workflow ≠ j.workflow then i.workflow < j.workflow
  else if i.task ≠ j.task then i.task < j.task
  else if i.runKey ≠ j.runKey then i.runKey < j.runKey
  else i.storedIndex ≤ j.storedIndex

/-- The identity as a record. -/
def shape : RecordShape where
  name := "RunIdentity"
  fields := [("workflow_id", Decoder.string.check), ("task_id", Decoder.string.check),
    ("run_key", Decoder.string.check), ("map_index", (Decoder.optional (Decoder.unsigned 32)).check)]

/-- The identity that JSON stands for. -/
def decode : Decoder Run := fun v => do
  let ms ← shape.read v
  let workflow ← Decoder.required Decoder.string "workflow_id" ms
  let task ← Decoder.required Decoder.string "task_id" ms
  let runKey ← Decoder.required Decoder.string "run_key" ms
  let mapIndex ← Decoder.possible (Decoder.unsigned 32) "map_index" ms
  .ok ⟨workflow, task, runKey, mapIndex⟩

/-- A number or null. -/
def indexToJson : Option Nat → Json
  | some n => .integer n
  | none => .null

/-- The identity as JSON. -/
def toJson (i : Run) : Json :=
  .object [("workflow_id", .string i.workflow), ("task_id", .string i.task), ("run_key", .string i.runKey),
    ("map_index", indexToJson i.mapIndex)]

end Run

end SnapshotLedger
