import SnapshotLedger.Rendered.Value
import SnapshotLedger.Json.Printer
import SnapshotLedger.Entries

/-!
# Rendered values as JSON

Plain data keeps its form. An object is written with three members, its kind, the names of its template fields
and its attributes, under keys with two underscores; `ofJson` takes exactly such objects of three members for
objects again, and all others for mappings. What is no finite number is written as a text. Main statement:
values read from JSON are ordered (`ordered_ofJson`).
-/

namespace SnapshotLedger.Rendered

/-- The key of an object's kind. -/
def kindKey : String := "__kind"

/-- The key of the names of an object's template fields. -/
def templateFieldsKey : String := "__template_fields"

/-- The key of an object's attributes. -/
def attributesKey : String := "__attributes"

mutual

/-- The value as JSON. -/
def toJson : Rendered → Json
  | null => .null
  | bool b => .bool b
  | integer n => .integer n
  | float x => if x.isFinite then .float x else .string (String.ofList (NumberLayout.display.text x))
  | text s => .string s
  | sequence vs => .array (itemsToJson vs)
  | mapping es => .object (entriesToJson es)
  | object kind names es =>
    .object [(kindKey, .string kind), (templateFieldsKey, .array (names.map .string)),
      (attributesKey, .object (entriesToJson es))]

/-- The items as JSON. -/
def itemsToJson : List Rendered → List Json
  | [] => []
  | v :: vs => toJson v :: itemsToJson vs

/-- The entries as members of a JSON object. -/
def entriesToJson : List (String × Rendered) → List (String × Json)
  | [] => []
  | (k, v) :: es => (k, toJson v) :: entriesToJson es

end

/-- An integer, which becomes a binary number when it does not fit in a signed word. -/
def ofInteger (n : Int) : Rendered := if Json.fitsSigned n then integer n else float (.ofInt n)

/-- The texts of an array that holds nothing else. -/
def names? : Json → Option (List String)
  | .array items => items.mapM Json.string?
  | _ => none

/-- The kind and the names in the members of an object, if these are exactly the three that an object is written
with. -/
def tag? (ms : List (String × Json)) : Option (String × List String) := do
  if ms.length ≠ 3 then none
  let kind ← (← ms.lookup kindKey).string?
  let names ← names? (← ms.lookup templateFieldsKey)
  match ← ms.lookup attributesKey with
  | .object _ => some (kind, names)
  | _ => none

mutual

/-- The value that JSON stands for. -/
def ofJson : Json → Rendered
  | .null => null
  | .bool b => bool b
  | .integer n => ofInteger n
  | .float x => float x
  | .string s => text s
  | .array items => sequence (itemsOfJson items)
  | .object ms =>
    match tag? ms with
    | some (kind, names) => object kind names (attributesOfJson ms)
    | none => mapping (Entries.ofList (entriesOfJson ms))

/-- The values that the items of an array stand for. -/
def itemsOfJson : List Json → List Rendered
  | [] => []
  | v :: vs => ofJson v :: itemsOfJson vs

/-- The values that the members of an object stand for. -/
def entriesOfJson : List (String × Json) → List (String × Rendered)
  | [] => []
  | (k, v) :: ms => (k, ofJson v) :: entriesOfJson ms

/-- The entries of the member that holds the attributes. -/
def attributesOfJson : List (String × Json) → List (String × Rendered)
  | [] => []
  | (k, .object ms) :: r => if k = attributesKey then Entries.ofList (entriesOfJson ms) else attributesOfJson r
  | _ :: r => attributesOfJson r

end

/-- Entries put in order are ordered when their values are. -/
theorem ordered_ofList {es : List (String × Rendered)} (h : OrderedEntries es) :
    Entries.Ordered (Entries.ofList es) ∧ OrderedEntries (Entries.ofList es) := by
  refine ⟨Entries.ordered_ofList es, ?_⟩
  rw [orderedEntries_iff] at h ⊢
  exact fun e he => h e (Entries.mem_of_mem_ofList he)

mutual

/-- A value read from JSON is ordered. -/
theorem ordered_ofJson : (v : Json) → (ofJson v).Ordered
  | .null | .bool _ | .float _ | .string _ => by simp only [ofJson, Ordered]
  | .integer n => by
    simp only [ofJson, ofInteger]
    split <;> simp only [Ordered]
  | .array items => by
    simp only [ofJson, Ordered]
    exact orderedItems_itemsOfJson items
  | .object ms => by
    simp only [ofJson]
    split
    · exact ordered_attributesOfJson ms
    · exact ordered_ofList (orderedEntries_entriesOfJson ms)

/-- Items read from JSON are ordered. -/
theorem orderedItems_itemsOfJson : (items : List Json) → OrderedItems (itemsOfJson items)
  | [] => trivial
  | v :: vs => ⟨ordered_ofJson v, orderedItems_itemsOfJson vs⟩

/-- Entries read from JSON have ordered values. -/
theorem orderedEntries_entriesOfJson : (ms : List (String × Json)) → OrderedEntries (entriesOfJson ms)
  | [] => trivial
  | (_, v) :: ms => ⟨ordered_ofJson v, orderedEntries_entriesOfJson ms⟩

/-- Attributes read from JSON are in order and have ordered values. -/
theorem ordered_attributesOfJson : (ms : List (String × Json)) →
    Entries.Ordered (attributesOfJson ms) ∧ OrderedEntries (attributesOfJson ms)
  | [] => ⟨Entries.ordered_nil, trivial⟩
  | (_, .object ms) :: r => by
    rw [attributesOfJson]
    split
    · exact ordered_ofList (orderedEntries_entriesOfJson ms)
    · exact ordered_attributesOfJson r
  | (_, .null) :: r | (_, .bool _) :: r | (_, .integer _) :: r | (_, .float _) :: r | (_, .string _) :: r
  | (_, .array _) :: r => ordered_attributesOfJson r

end

end SnapshotLedger.Rendered

namespace SnapshotLedger

/-- The fields as one JSON object. -/
def Fields.toJson (fields : Fields) : Json := .object (Rendered.entriesToJson fields)

/-- The fields that a JSON object stands for. -/
def Fields.ofJson? : Json → Option Fields
  | .object ms => some (Entries.ofList (Rendered.entriesOfJson ms))
  | _ => none

end SnapshotLedger
