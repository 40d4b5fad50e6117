import SnapshotLedger.Json.Fault
import SnapshotLedger.Raw.Value
import SnapshotLedger.SnapshotId
import SnapshotLedger.Store.Table

/-!
# What can go wrong in a store
-/

namespace SnapshotLedger.Store

/-- The columns that hold fields. -/
inductive FieldsColumn where
  | renderedFields
  | podSpec
  deriving DecidableEq, Repr

namespace FieldsColumn

/-- The name of the column. -/
def name : FieldsColumn → String
  | renderedFields => "rendered_fields_json"
  | podSpec => "pod_spec_json"

/-- The place of the column in a row. -/
def place : FieldsColumn → Nat
  | renderedFields => 5
  | podSpec => 6

end FieldsColumn

/-- Why the text of a column holds no fields. -/
inductive ColumnFault where
  | unreadable (error : Json.ReadError)
  | notObject (got : Json)

/-- The explanations of the fault. -/
def ColumnFault.chain (column : FieldsColumn) : ColumnFault → Chain
  | unreadable error => [.text ("failed to parse " ++ column.name), .unreadable error]
  | notObject got =>
    [.text ("invalid " ++ column.name ++ ": invalid field value: " ++ (Raw.Fault.fieldsNotObject got).message)]

/-- Why a row holds no snapshot. -/
inductive RowFault where
  | id (fault : IdFault)
  | mapIndex (got : Int)
  | fields (column : FieldsColumn) (fault : ColumnFault)
  | createdAt (got : String)

namespace RowFault

/-- The fault in words. -/
def message : RowFault → String
  | id fault => "invalid snapshot_id: " ++ fault.message
  | mapIndex got => "invalid map_index: " ++ toString got
  | fields column fault => (fault.chain column).message
  | createdAt got => "invalid created_at: " ++ got

/-- Where in the row the fault is, and of which type the column is. -/
def place : RowFault → String
  | id _ => "Text at index: 0"
  | mapIndex _ => "Integer at index: 4"
  | fields column _ => "Text at index: " ++ toString column.place
  | createdAt _ => "Text at index: 7"

/-- The explanations of the fault. -/
def chain (f : RowFault) : Chain :=
  [.text ("Conversion error from type " ++ f.place ++ ", " ++ f.message), .text f.message]

end RowFault

/-- What a store was doing. -/
inductive Activity where
  | clearingPrevious
  | inserting
  | loading
  | loadingColumn (column : FieldsColumn)
  | preparingListing
  | decodingRow
  | counting
  | deleting
  | pruning
  deriving DecidableEq, Repr

/-- The failure of an activity in words. -/
def Activity.failure : Activity → String
  | clearingPrevious => "failed to clear previous snapshot"
  | inserting => "failed to insert rendered snapshot"
  | loading => "failed to load rendered snapshot"
  | loadingColumn column => "failed to load " ++ column.name
  | preparingListing => "failed to prepare snapshot listing"
  | decodingRow => "failed to decode rendered snapshot row"
  | counting => "failed to count rendered snapshots"
  | deleting => "failed to delete rendered snapshot"
  | pruning => "failed to prune rendered snapshots"

/-- What can go wrong in a store. -/
inductive Error where
  /-- An identity that may not be stored. -/
  | blank (part : Run.Part)
  /-- An instant whose date in universal time is beyond the calendar. -/
  | beyondCalendar
  | table (activity : Activity) (error : TableError)
  | row (activity : Activity) (fault : RowFault)
  | column (column : FieldsColumn) (fault : ColumnFault)

/-- The explanations of the error. -/
def Error.chain : Error → Chain
  | blank part =>
    [.text ("snapshot identity validation failed: validation error: " ++ part.name ++ " MUST be non-empty")]
  | beyondCalendar => [.text "the instant is beyond the calendar"]
  | table activity error => [.text activity.failure, .text error.message, .text error.code]
  | row activity fault => .text activity.failure :: fault.chain
  | column c fault => fault.chain c

end SnapshotLedger.Store
