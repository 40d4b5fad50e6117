import SnapshotLedger.Calendar.Reading
import SnapshotLedger.Json.Printer

/-!
# Field values

The values of an owner's fields before they are rendered. Besides plain data there are dates, timestamps, and
objects: owners nested in a value, with a kind, the names of their template fields, the names of the attributes
that they show, and the values of their attributes. The entries of mappings and the attributes are meant to be
in order of their keys (`Entries.Ordered`).
-/

namespace SnapshotLedger

/-- A value of a field. -/
inductive Raw where
  | null
  | bool (b : Bool)
  | integer (n : Int)
  | float (x : Binary64)
  | text (s : String)
  | date (d : Date)
  | timestamp (t : Timestamp)
  | sequence (items : List Raw)
  | mapping (entries : List (String × Raw))
  | object (kind : String) (templateFields : List String) (shown : List String)
      (attributes : List (String × Raw))
  deriving Inhabited, Repr

/-- The owner of fields, some of which it declares as template fields. -/
structure Owner where
  kind : String
  templateFields : List String
  /-- The names of the attributes shown when the owner is nested in a value. -/
  shown : List String
  attributes : List (String × Raw)
  deriving Inhabited, Repr

namespace Owner

/-- The owner as a value. -/
def toField (o : Owner) : Raw := .object o.kind o.templateFields o.shown o.attributes

/-- The value of a field. -/
def field? (o : Owner) (name : String) : Option Raw := o.attributes.lookup name

end Owner

/-! ## What can be wrong with a value -/

/-- Why a field value is refused. -/
inductive Raw.Fault where
  | dateNotText
  | date (text : String) (fault : DateFault)
  | timestampNotText
  | timestamp (text : String) (fault : DateFault)
  | descriptorNotObject
  | descriptorWithoutKind
  | templateFieldsNotArray (kind : String)
  | templateFieldsNotTexts (kind : String)
  | attributesNotObject (kind : String)
  | fieldsNotObject (got : Json)
  | notFinite (field : String) (number : Binary64)

/-- The fault in words. -/
def Raw.Fault.message : Raw.Fault → String
  | dateNotText => "$date MUST be a YYYY-MM-DD string"
  | date got fault => "invalid $date " ++ got ++ ": " ++ fault.message
  | timestampNotText => "$timestamp MUST be an RFC3339 string"
  | timestamp got fault => "invalid $timestamp " ++ got ++ ": " ++ fault.message
  | descriptorNotObject => "object descriptor MUST be a JSON object"
  | descriptorWithoutKind => "object descriptor requires a non-empty kind"
  | templateFieldsNotArray kind => "template_fields of " ++ kind ++ " MUST be an array"
  | templateFieldsNotTexts kind => "template_fields of " ++ kind ++ " MUST contain strings"
  | attributesNotObject kind => "attributes of " ++ kind ++ " MUST be an object"
  | fieldsNotObject got => "rendered fields MUST be a JSON object, got " ++ got.compact
  | notFinite field number =>
    "field " ++ field ++ " holds non-finite number " ++ String.ofList (NumberLayout.display.text number)

end SnapshotLedger
