import SnapshotLedger.Json.Printer
import SnapshotLedger.Text.Quoted

/-!
# Reading records out of JSON

A record is given by an object with a member for each of its fields, or by an array of its fields in order.
Fields are looked at in the order in which they are given, so of several faulty ones the first is blamed; only
then are missing fields noticed, in the order of the record. Members that the record does not know are passed
over.
-/

namespace SnapshotLedger

/-- Why JSON does not stand for what was asked for. -/
inductive DecodeError where
  | wrongType (got : Json) (expected : String)
  | wrongValue (got : Int) (expected : String)
  | missingField (name : String)
  | unknownField (name : String) (known : List String)
  | wrongLength (length : Nat) (expected : String)
  | other (text : String)

namespace DecodeError

/-- The kind of a value, with the value itself where it is short. -/
def describe : Json → String
  | .null => "null"
  | .bool true => "boolean `true`"
  | .bool false => "boolean `false`"
  | .integer n => "integer `" ++ toString n ++ "`"
  | .float x => "floating point `" ++ String.ofList (NumberLayout.exchange.text x) ++ "`"
  | .string s => "string " ++ Text.quoted s
  | .array _ => "sequence"
  | .object _ => "map"

/-- The error in words. -/
def message : DecodeError → String
  | wrongType got expected => "invalid type: " ++ describe got ++ ", expected " ++ expected
  | wrongValue got expected => "invalid value: integer `" ++ toString got ++ "`, expected " ++ expected
  | missingField name => "missing field `" ++ name ++ "`"
  | unknownField name known =>
    "unknown field `" ++ name ++ "`, expected one of " ++ ", ".intercalate (known.map fun k => "`" ++ k ++ "`")
  | wrongLength length expected => "invalid length " ++ toString length ++ ", expected " ++ expected
  | other text => text

end DecodeError

/-- A way to read a value of one type. -/
abbrev Decoder (α : Type) := Json → Except DecodeError α

namespace Decoder

/-- Any value as it is. -/
def any : Decoder Json := .ok

/-- A text. -/
def string : Decoder String
  | .string s => .ok s
  | v => .error (.wrongType v "a string")

/-- A truth value. -/
def bool : Decoder Bool
  | .bool b => .ok b
  | v => .error (.wrongType v "a boolean")

/-- An integer between two bounds, which are known under a name. -/
def integer (name : String) (least greatest : Int) : Decoder Int
  | .integer n => if least ≤ n && n ≤ greatest then .ok n else .error (.wrongValue n name)
  | v => .error (.wrongType v name)

/-- A signed integer of so many bits. -/
def signed (bits : Nat) : Decoder Int := integer ("i" ++ toString bits) (-twoTo (bits - 1)) (twoTo (bits - 1) - 1)

/-- An unsigned integer of so many bits. -/
def unsigned (bits : Nat) : Decoder Nat := fun v =>
  (integer ("u" ++ toString bits) 0 (twoTo bits - 1) v).map Int.toNat

/-- A size. -/
def size : Decoder Nat := fun v => (integer "usize" 0 Json.greatestUnsigned v).map Int.toNat

/-- A value that may be missing, which null says. -/
def optional {α : Type} (d : Decoder α) : Decoder (Option α)
  | .null => .ok none
  | v => (d v).map some

/-- The values of a sequence. -/
def list {α : Type} (d : Decoder α) : Decoder (List α)
  | .array items => items.mapM d
  | v => .error (.wrongType v "a sequence")

/-- Whether a value can be read. -/
def check {α : Type} (d : Decoder α) : Decoder Unit := fun v => (d v).map fun _ => ()

end Decoder

/-- The name of a record and a way to check each of its fields, in order. -/
structure RecordShape where
  name : String
  fields : List (String × Decoder Unit)

namespace RecordShape

/-- Checks the known ones among some fields, in the order in which they are given. -/
def checkFields (shape : RecordShape) : List (String × Json) → Except DecodeError Unit
  | [] => .ok ()
  | (k, v) :: r =>
    match shape.fields.lookup k with
    | some check => do
      check v
      checkFields shape r
    | none => checkFields shape r

/-- The items of an array as fields, as far as both go. -/
def named (shape : RecordShape) (items : List Json) : List (String × Json) := (shape.fields.map Prod.fst).zip items

/-- The fields of a record, each of which can be read. -/
def read (shape : RecordShape) : Decoder (List (String × Json))
  | .object ms => do
    shape.checkFields ms
    .ok ms
  | .array items => do
    let count := shape.fields.length
    shape.checkFields (shape.named items)
    if items.length < count then
      .error (.wrongLength items.length ("struct " ++ shape.name ++ " with " ++ toString count ++ " elements"))
    if count < items.length then .error (.wrongLength items.length "fewer elements in array")
    .ok (shape.named items)
  | v => .error (.wrongType v ("struct " ++ shape.name))

end RecordShape

namespace Decoder

/-- A field that a record must have. -/
def required {α : Type} (d : Decoder α) (name : String) (ms : List (String × Json)) : Except DecodeError α :=
  match ms.lookup name with
  | some v => d v
  | none => .error (.missingField name)

/-- A field that a record may lack. -/
def possible {α : Type} (d : Decoder α) (name : String) (ms : List (String × Json)) : Except DecodeError (Option α) :=
  match ms.lookup name with
  | some v => optional d v
  | none => .ok none

/-- A field with a value for records that lack it. -/
def withDefault {α : Type} (d : Decoder α) (usual : α) (name : String) (ms : List (String × Json)) :
    Except DecodeError α :=
  match ms.lookup name with
  | some v => d v
  | none => .ok usual

end Decoder

end SnapshotLedger
