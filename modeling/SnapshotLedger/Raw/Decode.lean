import SnapshotLedger.Calendar.Rfc3339
import SnapshotLedger.Entries
import SnapshotLedger.Raw.Value
import SnapshotLedger.Text.Search

/-!
# Field values from JSON

Plain data stands for itself. An object whose only member has the key `$date`, `$timestamp` or `$object` stands
for a date, a timestamp or an owner; an owner is described by its kind, the names of its template fields and its
attributes, all of which it shows when it is nested.
-/

namespace SnapshotLedger

namespace Raw

/-- An integer, which becomes a binary number when it does not fit in a signed word. -/
def ofInteger (n : Int) : Raw := if Json.fitsSigned n then integer n else float (.ofInt n)

/-- The date in a tagged value. -/
def dateOfJson : Json → Except Raw.Fault Raw
  | .string s =>
    match Date.read s with
    | .ok d => .ok (date d)
    | .error fault => .error (.date s fault)
  | _ => .error .dateNotText

/-- The timestamp that a text holds. -/
def readTimestamp (s : String) : Except Raw.Fault Timestamp :=
  match Timestamp.readRfc3339 s with
  | .ok t => .ok t
  | .error fault => .error (.timestamp s fault)

/-- The timestamp in a tagged value. -/
def timestampOfJson : Json → Except Raw.Fault Raw
  | .string s => (readTimestamp s).map timestamp
  | _ => .error .timestampNotText

/-- The kind in a descriptor. -/
def kindOfJson (ms : List (String × Json)) : Except Raw.Fault String :=
  match ms.lookup "kind" with
  | some (.string kind) => if Text.isBlank kind then .error .descriptorWithoutKind else .ok kind
  | _ => .error .descriptorWithoutKind

/-- The names of the template fields in a descriptor. -/
def templateFieldsOfJson (kind : String) (ms : List (String × Json)) : Except Raw.Fault (List String) :=
  match ms.lookup "template_fields" with
  | none | some .null => .ok []
  | some (.array items) =>
    match items.mapM Json.string? with
    | some names => .ok names
    | none => .error (.templateFieldsNotTexts kind)
  | some _ => .error (.templateFieldsNotArray kind)

mutual

/-- The value that JSON stands for. -/
def ofJson : Json → Except Raw.Fault Raw
  | .null => .ok null
  | .bool b => .ok (bool b)
  | .integer n => .ok (ofInteger n)
  | .float x => .ok (float x)
  | .string s => .ok (text s)
  | .array items => (itemsOfJson items).map sequence
  | .object [(key, v)] =>
    if key = "$date" then dateOfJson v
    else if key = "$timestamp" then timestampOfJson v
    else if key = "$object" then
      match descriptorOfJson v with
      | .ok o => .ok o.toField
      | .error fault => .error fault
    else (ofJson v).map fun v => mapping [(key, v)]
  | .object ms => (entriesOfJson ms).map fun es => mapping (Entries.ofList es)

/-- The owner that a descriptor describes. -/
def descriptorOfJson : Json → Except Raw.Fault Owner
  | .object ms => do
    let kind ← kindOfJson ms
    let names ← templateFieldsOfJson kind ms
    let attributes ← attributesOfJson kind ms
    .ok ⟨kind, names, attributes.map Prod.fst, attributes⟩
  | _ => .error .descriptorNotObject

/-- The values that the items of an array stand for. -/
def itemsOfJson : List Json → Except Raw.Fault (List Raw)
  | [] => .ok []
  | v :: vs => do
    let v ← ofJson v
    let vs ← itemsOfJson vs
    .ok (v :: vs)

/-- The values that the members of an object stand for. -/
def entriesOfJson : List (String × Json) → Except Raw.Fault (List (String × Raw))
  | [] => .ok []
  | (k, v) :: ms => do
    let v ← ofJson v
    let es ← entriesOfJson ms
    .ok ((k, v) :: es)

/-- The attributes in a descriptor. -/
def attributesOfJson (kind : String) : List (String × Json) → Except Raw.Fault (List (String × Raw))
  | [] => .ok []
  | (k, .object ms) :: r =>
    if k = "attributes" then (entriesOfJson ms).map Entries.ofList else attributesOfJson kind r
  | (k, v) :: r =>
    if k = "attributes" then
      match v with
      | .null => .ok []
      | _ => .error (.attributesNotObject kind)
    else attributesOfJson kind r

end

end Raw

/-- The owner that a descriptor describes. -/
def Owner.ofJson (v : Json) : Except Raw.Fault Owner := Raw.descriptorOfJson v

end SnapshotLedger
