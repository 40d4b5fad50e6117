import SnapshotLedger.Redaction.Policy
import SnapshotLedger.Settings
import SnapshotLedger.Rendered.Encoding
import SnapshotLedger.Store.Error
import SnapshotLedger.Template.Render

/-!
# Why a snapshot cannot be made

The errors of everything between a raw field and a stored snapshot, each with its cause.
-/

namespace SnapshotLedger

/-- Why an argument is refused. -/
inductive ValidationFault where
  | blank (part : Run.Part)
  | contextNotObject (got : Json)
  | unreadableTimestamp (fault : DateFault)
  | notUniversal
  | unwritableYear
  /-- What somebody else says is wrong. -/
  | other (text : String)

/-- The fault in words. -/
def ValidationFault.message : ValidationFault → String
  | blank part => part.name ++ " MUST be non-empty"
  | contextNotObject got => "render context MUST be a JSON object, got " ++ got.compact
  | unreadableTimestamp fault => "invalid RFC3339 timestamp: " ++ fault.message
  | notUniversal => "timestamp MUST use UTC offset Z"
  | unwritableYear =>
    "failed to format RFC3339 timestamp: The year component cannot be formatted into the requested format."
  | other text => text

/-- Why a snapshot cannot be made. -/
inductive LedgerError where
  | validation (fault : ValidationFault)
  | template (field : String) (source : Template.Error)
  | depthExceeded (limit : Nat)
  | missingField (kind field : String)
  | redaction (source : Redaction.Error)
  | persistence (source : Store.Error)
  | configuration (fault : SettingsFault)
  | invalidField (fault : Raw.Fault)
  /-- An instant whose date in universal time is beyond the calendar. -/
  | beyondCalendar

namespace LedgerError

/-- The error in words. -/
def message : LedgerError → String
  | validation fault => "validation error: " ++ fault.message
  | template field source => "failed to render template field " ++ field ++ ": " ++ source.message
  | depthExceeded limit => "render depth exceeded limit of " ++ toString limit
  | missingField kind field => kind ++ " declares template field " ++ field ++ " but does not expose it"
  | redaction source => "redaction policy error: " ++ source.message
  | persistence source => "persistence error: " ++ source.chain.message
  | configuration fault => "configuration error: " ++ fault.message
  | invalidField fault => "invalid field value: " ++ fault.message
  | beyondCalendar => "the instant is beyond the calendar"

/-- The explanations of the error. -/
def chain : LedgerError → Chain
  | template field source => [.text (message (template field source)), .text source.message]
  | redaction source => [.text (message (redaction source)), .text source.message]
  | e => [.text e.message]

/-- The error of an instant without a text in universal time. -/
def ofUtcFault : Timestamp.UtcFault → LedgerError
  | .year => validation .unwritableYear
  | .beyondCalendar => beyondCalendar

/-- The error of a store that cannot hold a snapshot. -/
def ofStoreError : Store.Error → LedgerError
  | .beyondCalendar => beyondCalendar
  | e => persistence e

end LedgerError

/-- Refuses an identity with a blank part. -/
def Run.validate (i : Run) : Except LedgerError Unit :=
  match i.blankPart? with
  | some part => .error (.validation (.blank part))
  | none => .ok ()

/-- The timestamp that a text holds, which has to be given in universal time. -/
def Timestamp.readUniversal (text : String) : Except LedgerError Timestamp :=
  match readRfc3339 text with
  | .error fault => .error (.validation (.unreadableTimestamp fault))
  | .ok t => if t.offset = 0 then .ok t else .error (.validation .notUniversal)

/-- The instant in universal time. -/
def Timestamp.universalText (t : Timestamp) : Except LedgerError String := t.rfc3339.mapError .ofUtcFault

/-- The run key of a logical date. -/
def Run.logicalRunKey (logicalDate : Timestamp) : Except LedgerError String :=
  (runKeyOf logicalDate).mapError .ofUtcFault

/-- The context whose values are the members of an object. -/
def Context.ofJson (v : Json) : Except LedgerError Context :=
  match ofJson? v with
  | some c => .ok c
  | none => .error (.validation (.contextNotObject v))

/-- The fields that a JSON object stands for. -/
def Fields.ofJson (v : Json) : Except LedgerError Fields :=
  match ofJson? v with
  | some fields => .ok fields
  | none => .error (.invalidField (.fieldsNotObject v))

end SnapshotLedger
