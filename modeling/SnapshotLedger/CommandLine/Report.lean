import SnapshotLedger.Error
import SnapshotLedger.Snapshot

/-!
# Reports

What commands answer. A report is printed as one document; a snapshot or fields that are not there are reported
as null. Each kind of report names the version of its form, and reports can be read back from their documents.
-/

namespace SnapshotLedger.CommandLine

/-- A snapshot as it is reported. -/
structure SnapshotReport where
  form : String := "rendered_snapshot.v1"
  id : String
  workflow : String
  task : String
  runKey : String
  mapIndex : Option Nat
  createdAt : String
  fields : Json
  podSpec : Option Json
  deriving Inhabited

namespace SnapshotReport

/-- The report of a snapshot. The time of its creation needs a text in universal time. -/
def ofSnapshot (s : Snapshot) : Except LedgerError SnapshotReport := do
  let createdAt ← s.createdAt.universalText
  .ok {
    id := s.id.text
    workflow := s.identity.workflow
    task := s.identity.task
    runKey := s.identity.runKey
    mapIndex := s.identity.mapIndex
    createdAt := createdAt
    fields := Fields.toJson s.fields
    podSpec := s.podSpec.map Fields.toJson }

/-- The report as a record. -/
def shape : RecordShape where
  name := "SnapshotJsonPayload"
  fields := [("contract_version", Decoder.string.check), ("snapshot_id", Decoder.string.check),
    ("workflow_id", Decoder.string.check), ("task_id", Decoder.string.check), ("run_key", Decoder.string.check),
    ("map_index", (Decoder.optional (Decoder.unsigned 32)).check), ("created_at", Decoder.string.check),
    ("rendered_fields", Decoder.any.check), ("pod_spec_snapshot", (Decoder.optional Decoder.any).check)]

/-- The report that JSON stands for. -/
def decode : Decoder SnapshotReport := fun v => do
  let ms ← shape.read v
  .ok {
    form := ← Decoder.required Decoder.string "contract_version" ms
    id := ← Decoder.required Decoder.string "snapshot_id" ms
    workflow := ← Decoder.required Decoder.string "workflow_id" ms
    task := ← Decoder.required Decoder.string "task_id" ms
    runKey := ← Decoder.required Decoder.string "run_key" ms
    mapIndex := ← Decoder.possible (Decoder.unsigned 32) "map_index" ms
    createdAt := ← Decoder.required Decoder.string "created_at" ms
    fields := ← Decoder.required Decoder.any "rendered_fields" ms
    podSpec := ← Decoder.possible Decoder.any "pod_spec_snapshot" ms }

/-- The report as JSON. -/
def toJson (r : SnapshotReport) : Json :=
  .object [("contract_version", .string r.form), ("snapshot_id", .string r.id), ("workflow_id", .string r.workflow),
    ("task_id", .string r.task), ("run_key", .string r.runKey), ("map_index", Run.indexToJson r.mapIndex),
    ("created_at", .string r.createdAt), ("rendered_fields", r.fields), ("pod_spec_snapshot", r.podSpec.getD .null)]

end SnapshotReport

/-- A snapshot that has been taken, and the number of those removed to make room for it. -/
structure CaptureReport where
  form : String := "capture_report.v1"
  pruned : Nat
  snapshot : SnapshotReport
  deriving Inhabited

namespace CaptureReport

/-- The report as a record. -/
def shape : RecordShape where
  name := "CaptureJsonPayload"
  fields := [("contract_version", Decoder.string.check), ("pruned", Decoder.size.check),
    ("snapshot", SnapshotReport.decode.check)]

/-- The report that JSON stands for. -/
def decode : Decoder CaptureReport := fun v => do
  let ms ← shape.read v
  .ok {
    form := ← Decoder.required Decoder.string "contract_version" ms
    pruned := ← Decoder.required Decoder.size "pruned" ms
    snapshot := ← Decoder.required SnapshotReport.decode "snapshot" ms }

/-- The report as JSON. -/
def toJson (r : CaptureReport) : Json :=
  .object [("contract_version", .string r.form), ("pruned", .integer r.pruned), ("snapshot", r.snapshot.toJson)]

end CaptureReport

/-- What removing the oldest run keys of a task has done. -/
structure PruneReport where
  form : String := "prune_report.v1"
  workflow : String
  task : String
  keep : Int
  deleted : Nat
  remaining : Nat
  deriving DecidableEq, Repr, Inhabited

namespace PruneReport

/-- The report as a record. -/
def shape : RecordShape where
  name := "PruneJsonPayload"
  fields := [("contract_version", Decoder.string.check), ("workflow_id", Decoder.string.check),
    ("task_id", Decoder.string.check), ("keep", (Decoder.signed 64).check), ("deleted", Decoder.size.check),
    ("remaining", Decoder.size.check)]

/-- The report that JSON stands for. -/
def decode : Decoder PruneReport := fun v => do
  let ms ← shape.read v
  .ok {
    form := ← Decoder.required Decoder.string "contract_version" ms
    workflow := ← Decoder.required Decoder.string "workflow_id" ms
    task := ← Decoder.required Decoder.string "task_id" ms
    keep := ← Decoder.required (Decoder.signed 64) "keep" ms
    deleted := ← Decoder.required Decoder.size "deleted" ms
    remaining := ← Decoder.required Decoder.size "remaining" ms }

/-- The report as JSON. -/
def toJson (r : PruneReport) : Json :=
  .object [("contract_version", .string r.form), ("workflow_id", .string r.workflow), ("task_id", .string r.task),
    ("keep", .integer r.keep), ("deleted", .integer r.deleted), ("remaining", .integer r.remaining)]

end PruneReport

/-- Whether the snapshot of a run has been removed. -/
structure DeletionReport where
  form : String := "delete_report.v1"
  identity : String
  deleted : Bool
  deriving DecidableEq, Repr, Inhabited

namespace DeletionReport

/-- The report as a record. -/
def shape : RecordShape where
  name := "DeleteJsonPayload"
  fields := [("contract_version", Decoder.string.check), ("identity", Decoder.string.check),
    ("deleted", Decoder.bool.check)]

/-- The report that JSON stands for. -/
def decode : Decoder DeletionReport := fun v => do
  let ms ← shape.read v
  .ok {
    form := ← Decoder.required Decoder.string "contract_version" ms
    identity := ← Decoder.required Decoder.string "identity" ms
    deleted := ← Decoder.required Decoder.bool "deleted" ms }

/-- The report as JSON. -/
def toJson (r : DeletionReport) : Json :=
  .object [("contract_version", .string r.form), ("identity", .string r.identity), ("deleted", .bool r.deleted)]

end DeletionReport

/-- What a command answers. -/
inductive Report where
  | capture (report : CaptureReport)
  | snapshot (report : Option SnapshotReport)
  | fields (fields : Option Fields)
  | listing (reports : List SnapshotReport)
  | prune (report : PruneReport)
  | deletion (report : DeletionReport)
  deriving Inhabited

namespace Report

/-- The report as JSON. -/
def toJson : Report → Json
  | capture report => report.toJson
  | snapshot (some report) => report.toJson
  | snapshot none => .null
  | fields content => Snapshot.optionalToJson content
  | listing reports => .array (reports.map SnapshotReport.toJson)
  | prune report => report.toJson
  | deletion report => report.toJson

/-- The report as it is printed. -/
def text (r : Report) : String := r.toJson.pretty ++ "\n"

end Report

end SnapshotLedger.CommandLine
