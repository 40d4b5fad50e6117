import SnapshotLedger.Calendar.Stored
import SnapshotLedger.Json.Reader
import SnapshotLedger.Snapshot
import SnapshotLedger.Store.Error
import SnapshotLedger.Store.Retention

/-!
# The store of snapshots

A store holds at most one snapshot for each identity, in a table that exists once the store has been migrated.
Writing replaces the snapshot of the identity as a whole or fails and changes nothing. All ways to read decode
the stored texts; a row that cannot be decoded fails the reading, not the store.

The identifier of a new snapshot and the time come from outside, so that every operation is a function.
-/

namespace SnapshotLedger

/-- A store of snapshots. -/
structure Store where
  table : Option Store.Table := none
  deriving DecidableEq, Repr, Inhabited

namespace Store

/-- The store without a table. -/
def blank : Store := ⟨none⟩

/-- The store with its table, an empty one if there was none. -/
def migrate (s : Store) : Store := ⟨some (s.table.getD {})⟩

/-- The store without its table. -/
def dropTable (s : Store) : Except TableError Store :=
  match s.table with
  | some _ => .ok ⟨none⟩
  | none => .error .noTable

/-- The table, for an activity. -/
def tableFor (s : Store) (activity : Activity) : Except Error Table :=
  match s.table with
  | some t => .ok t
  | none => .error (.table activity .noTable)

/-- The text in which fields are stored. -/
def fieldsText (fields : Fields) : String := (Fields.toJson fields).compact

/-- The fields that a stored text holds. -/
def fieldsOfText (text : String) : Except ColumnFault Fields :=
  match Json.read text with
  | .error e => .error (.unreadable e)
  | .ok v =>
    match Fields.ofJson? v with
    | some fields => .ok fields
    | none => .error (.notObject v)

/-- The fields in a column of a row. -/
def readColumn (column : FieldsColumn) (text : String) : Except RowFault Fields :=
  (fieldsOfText text).mapError (.fields column)

/-- The map index that is stored. -/
def mapIndexOf (n : Int) : Except RowFault (Option Nat) :=
  if n = Run.unmapped then .ok none
  else if 0 ≤ n && n ≤ Run.greatestIndex then .ok (some n.toNat)
  else .error (.mapIndex n)

/-- The snapshot in a row. -/
def snapshotOf (r : Row) : Except RowFault Snapshot := do
  let id ← (SnapshotId.ofText r.id).mapError .id
  let mapIndex ← mapIndexOf r.mapIndex
  let fields ← readColumn .renderedFields r.fields
  let podSpec ← match r.podSpec with
    | some text => (readColumn .podSpec text).map some
    | none => .ok none
  match Timestamp.ofStored? r.createdAt with
  | some createdAt => .ok ⟨id, ⟨r.workflow, r.task, r.runKey, mapIndex⟩, fields, podSpec, createdAt⟩
  | none => .error (.createdAt r.createdAt)

/-- The row of a snapshot created at a stored time. -/
def rowOf (s : Snapshot) (createdAt : String) : Row where
  seq := 0
  id := s.id.text
  workflow := s.identity.workflow
  task := s.identity.task
  runKey := s.identity.runKey
  mapIndex := s.identity.storedIndex
  fields := fieldsText s.fields
  podSpec := s.podSpec.map fieldsText
  createdAt := createdAt

/-- Writes the snapshot of an identity in place of the one before. The answer is the snapshot as it was given,
in universal time. -/
def write (s : Store) (id : SnapshotId) (identity : Run) (fields : Fields)
    (podSpec : Option Fields) (createdAt : Timestamp) : Except Error (Snapshot × Store) :=
  match identity.blankPart?, createdAt.stored? with
  | some part, _ => .error (.blank part)
  | none, none => .error .beyondCalendar
  | none, some stored => do
    let snapshot : Snapshot := ⟨id, identity, fields, podSpec, createdAt.toUtc⟩
    let t ← s.tableFor .clearingPrevious
    match (t.erase (·.isOf identity)).insert (rowOf snapshot stored) with
    | .ok t => .ok (snapshot, ⟨some t⟩)
    | .error e => .error (.table .inserting e)

/-- The snapshot of an identity. -/
def get? (s : Store) (identity : Run) : Except Error (Option Snapshot) := do
  let t ← s.tableFor .loading
  match t.find? identity with
  | none => .ok none
  | some r => ((snapshotOf r).mapError (.row .loading)).map some

/-- The fields in one column of the row of an identity; none without a row or without a text in it. -/
def column? (s : Store) (column : FieldsColumn) (textOf : Row → Option String) (identity : Run) :
    Except Error (Option Fields) := do
  let t ← s.tableFor (.loadingColumn column)
  match (t.find? identity).bind textOf with
  | none => .ok none
  | some text => ((fieldsOfText text).mapError (.column column)).map some

/-- The rendered fields of an identity. -/
def fields? (s : Store) (identity : Run) : Except Error (Option Fields) :=
  s.column? .renderedFields (fun r => some r.fields) identity

/-- The fields of the pod of an identity. -/
def podSpec? (s : Store) (identity : Run) : Except Error (Option Fields) :=
  s.column? .podSpec Row.podSpec identity

/-- The greatest limit on a listing. -/
def greatestLimit : Nat := 9223372036854775807

/-- The snapshots of a workflow, or of one of its tasks, newest first, up to a limit. -/
def list (s : Store) (workflow : String) (task : Option String) (limit : Option Nat) :
    Except Error (List Snapshot) := do
  let t ← s.tableFor .preparingListing
  let rows := t.listing workflow task
  let rows ← match limit with
    | none => .ok rows
    | some n => if greatestLimit < n then .error (.table .decodingRow .limitTooLarge) else .ok (rows.take n)
  rows.mapM fun r => (snapshotOf r).mapError (.row .decodingRow)

/-- The number of snapshots of a task. -/
def count (s : Store) (workflow task : String) : Except Error Nat := do
  let t ← s.tableFor .counting
  .ok (t.group workflow task).length

/-- Removes the snapshot of an identity. The answer says whether there was one. -/
def delete (s : Store) (identity : Run) : Except Error (Bool × Store) := do
  let t ← s.tableFor .deleting
  .ok (t.rows.any (·.isOf identity), ⟨some (t.erase (·.isOf identity))⟩)

/-- Removes the snapshots of a task except those of its newest run keys; nothing unless a positive number is to
be kept. The answer is the number of snapshots removed. -/
def prune (s : Store) (workflow task : String) (keep : Int) : Except Error (Nat × Store) :=
  if keep ≤ 0 then .ok (0, s)
  else do
    let t ← s.tableFor .pruning
    let kept := t.prune workflow task keep.toNat
    .ok (t.rows.length - kept.rows.length, ⟨some kept⟩)

end Store

end SnapshotLedger
