import SnapshotLedger.Json.Decode
import SnapshotLedger.Redaction.Policy
import SnapshotLedger.Text.Search

/-!
# Settings

How many run keys are kept for each task, how deep values are rendered, which names are sensitive, and what
stands for hidden values. Settings are read from an object that may leave out each of them, but may not have
other members.
-/

namespace SnapshotLedger

/-- The names that are sensitive unless others are chosen. -/
def usualSensitiveNames : List String :=
  ["access_token", "api_key", "apikey", "authorization", "passphrase", "passwd", "password", "private_key",
    "secret", "token", "keyfile_dict", "service_account"]

/-- The settings of a recorder. -/
structure Settings where
  /-- The run keys kept for each task; none are removed when this is not positive. -/
  retention : Int := 30
  /-- The deepest level of nesting that is rendered. -/
  depthLimit : Nat := 64
  sensitiveNames : List String := usualSensitiveNames
  marker : String := usualMarker
  deriving DecidableEq, Repr, Inhabited

/-- Why settings cannot be used. -/
inductive SettingsFault where
  | depthZero
  | blankName
  | emptyMarker
  | undecodable (error : DecodeError)

/-- The fault in words. -/
def SettingsFault.message : SettingsFault → String
  | depthZero => "max_render_depth MUST be >= 1"
  | blankName => "sensitive_field_names MUST NOT contain blank entries"
  | emptyMarker => "mask_marker MUST be non-empty"
  | undecodable error => "invalid settings JSON payload: " ++ error.message

namespace Settings

/-- The settings used when nothing is set. -/
def usual : Settings := {}

/-- Whether the settings can be used. -/
def validate (s : Settings) : Except SettingsFault Unit :=
  if s.depthLimit = 0 then .error .depthZero
  else if s.sensitiveNames.any Text.isBlank then .error .blankName
  else if s.marker.isEmpty then .error .emptyMarker
  else .ok ()

/-- Whether old snapshots are removed. -/
def prunes (s : Settings) : Bool := 0 < s.retention

/-- The settings as a record. -/
def shape : RecordShape where
  name := "SnapshotSettings"
  fields := [("max_snapshots_per_task", (Decoder.signed 64).check), ("max_render_depth", Decoder.size.check),
    ("sensitive_field_names", (Decoder.list Decoder.string).check), ("mask_marker", Decoder.string.check)]

/-- The names of the settings. -/
def names : List String := shape.fields.map Prod.fst

/-- Checks some settings in the order in which they are given; there may be no unknown ones. -/
def checkMembers : List (String × Json) → Except DecodeError Unit
  | [] => .ok ()
  | (k, v) :: r =>
    match shape.fields.lookup k with
    | some check => do
      check v
      checkMembers r
    | none => .error (.unknownField k names)

/-- The settings among some members. -/
def ofMembers (ms : List (String × Json)) : Except DecodeError Settings := do
  checkMembers ms
  .ok {
    retention := ← Decoder.withDefault (Decoder.signed 64) usual.retention "max_snapshots_per_task" ms
    depthLimit := ← Decoder.withDefault Decoder.size usual.depthLimit "max_render_depth" ms
    sensitiveNames :=
      ← Decoder.withDefault (Decoder.list Decoder.string) usual.sensitiveNames "sensitive_field_names" ms
    marker := ← Decoder.withDefault Decoder.string usual.marker "mask_marker" ms }

/-- The settings that JSON stands for, whether they can be used or not. -/
def decode : Decoder Settings
  | .object ms => ofMembers ms
  | .array items => do
    let s ← ofMembers (shape.named items)
    if names.length < items.length then .error (.wrongLength items.length "fewer elements in array")
    .ok s
  | v => .error (.wrongType v ("struct " ++ shape.name))

/-- The settings that JSON stands for, if they can be used. -/
def ofJson (v : Json) : Except SettingsFault Settings :=
  match decode v with
  | .error e => .error (.undecodable e)
  | .ok s => do
    s.validate
    .ok s

/-- The settings as JSON. -/
def toJson (s : Settings) : Json :=
  .object [("max_snapshots_per_task", .integer s.retention), ("max_render_depth", .integer s.depthLimit),
    ("sensitive_field_names", .array (s.sensitiveNames.map .string)), ("mask_marker", .string s.marker)]

end Settings

end SnapshotLedger
