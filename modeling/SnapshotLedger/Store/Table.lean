import SnapshotLedger.Run
import SnapshotLedger.Sorting

/-!
# The table of snapshots

A row holds a snapshot in its stored form, fields and times as text. Rows are kept in the order in which they
were written, and each gets the next number of a sequence that never goes back. The table refuses rows with an
empty name and rows whose identity or identifier it holds already.
-/

namespace SnapshotLedger.Store

/-- A snapshot as it is stored. -/
structure Row where
  seq : Nat
  id : String
  workflow : String
  task : String
  runKey : String
  mapIndex : Int
  fields : String
  podSpec : Option String
  createdAt : String
  deriving DecidableEq, Repr, Inhabited

/-- What the table asks of each row. -/
inductive RowCheck where
  | workflow
  | task
  | runKey
  | mapIndex
  deriving DecidableEq, Repr

/-- What no two rows share. -/
inductive UniqueKey where
  | identity
  | snapshotId
  deriving DecidableEq, Repr

/-- Why the table refuses something. -/
inductive TableError where
  | noTable
  | checkFailed (check : RowCheck)
  | notUnique (key : UniqueKey)
  /-- A limit on a listing that is no signed word. -/
  | limitTooLarge
  deriving DecidableEq, Repr

/-- The condition in the words of the table's schema. -/
def RowCheck.condition : RowCheck → String
  | workflow => "length(workflow_id) > 0"
  | task => "length(task_id) > 0"
  | runKey => "length(run_key) > 0"
  | mapIndex => "map_index >= -1"

/-- The columns that a key consists of. -/
def UniqueKey.columns : UniqueKey → String
  | identity => ", ".intercalate (["workflow_id", "task_id", "run_key", "map_index"].map ("rendered_snapshots." ++ ·))
  | snapshotId => "rendered_snapshots.snapshot_id"

namespace TableError

/-- The error in words. -/
def message : TableError → String
  | noTable => "no such table: rendered_snapshots"
  | checkFailed check => "CHECK constraint failed: " ++ check.condition
  | notUnique key => "UNIQUE constraint failed: " ++ key.columns
  | limitTooLarge => "datatype mismatch"

/-- The kind of the error with its number. -/
def code : TableError → String
  | noTable => "Error code 1: SQL error or missing database"
  | checkFailed _ => "Error code 275: A CHECK constraint failed"
  | notUnique _ => "Error code 2067: A UNIQUE constraint failed"
  | limitTooLarge => "Error code 20: Data type mismatch"

end TableError

namespace Row

/-- Whether the row is one of an identity. -/
def isOf (r : Row) (i : Run) : Bool :=
  r.workflow = i.workflow && r.task = i.task && r.runKey = i.runKey && r.mapIndex = i.storedIndex

/-- Whether the row is one of a task of a workflow. -/
def isOfTask (r : Row) (workflow task : String) : Bool := r.workflow = workflow && r.task = task

/-- Whether two rows have the same identity. -/
def sameIdentity (r s : Row) : Bool :=
  r.workflow = s.workflow && r.task = s.task && r.runKey = s.runKey && r.mapIndex = s.mapIndex

/-- Whether a row stands before another in a listing: the newer one first, by the time stored and then by the
sequence. -/
def newerFirst (r s : Row) : Bool := s.createdAt < r.createdAt || (r.createdAt = s.createdAt && s.seq ≤ r.seq)

end Row

/-- Whether a text counts as non-empty: its length goes up to the first NUL. -/
def hasLength (s : String) : Bool :=
  match s.toList with
  | [] => false
  | c :: _ => c != '\x00'

/-- The first condition that a row does not meet. -/
def failedCheck? (r : Row) : Option RowCheck :=
  if !hasLength r.workflow then some .workflow
  else if !hasLength r.task then some .task
  else if !hasLength r.runKey then some .runKey
  else if r.mapIndex < Run.unmapped then some .mapIndex
  else none

/-- The rows in the order in which they were written, and the number for the next one. -/
structure Table where
  rows : List Row := []
  next : Nat := 1
  deriving DecidableEq, Repr, Inhabited

namespace Table

/-- The table with one more row, whose number it chooses. -/
def insert (t : Table) (r : Row) : Except TableError Table :=
  match failedCheck? r with
  | some check => .error (.checkFailed check)
  | none =>
    if t.rows.any r.sameIdentity then .error (.notUnique .identity)
    else if t.rows.any fun s => s.id = r.id then .error (.notUnique .snapshotId)
    else .ok ⟨t.rows ++ [{ r with seq := t.next }], t.next + 1⟩

/-- The table without the rows that a condition picks. -/
def erase (t : Table) (picks : Row → Bool) : Table := { t with rows := t.rows.filter fun r => !picks r }

/-- The row of an identity. -/
def find? (t : Table) (i : Run) : Option Row := t.rows.find? (·.isOf i)

/-- The rows of a workflow, or of one of its tasks, newest first. -/
def listing (t : Table) (workflow : String) (task : Option String) : List Row :=
  Sorting.sortBy Row.newerFirst
    (t.rows.filter fun r => r.workflow = workflow && task.all (r.task = ·))

end Table

end SnapshotLedger.Store
