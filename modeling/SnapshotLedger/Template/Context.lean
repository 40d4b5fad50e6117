import SnapshotLedger.Json.Printer
import SnapshotLedger.Text.Ascii
import SnapshotLedger.Text.Search

/-!
# Contexts

The named values that expressions refer to. A path of names separated by points leads from a value of the
context into it: a name selects a member of an object, a number an item of an array.
-/

namespace SnapshotLedger

/-- Named values, in the order in which they were given. -/
structure Context where
  values : List (String × Json)
  deriving Inhabited, Repr

namespace Context

/-- The context without values. -/
def empty : Context := ⟨[]⟩

/-- The context whose values are the members of an object. -/
def ofJson? : Json → Option Context
  | .object ms => some ⟨ms⟩
  | _ => none

/-- The context as one object. -/
def toJson (c : Context) : Json := .object c.values

/-- The context with one value replaced in its place, or added at the end. -/
def insert (c : Context) (name : String) (value : Json) : Context := ⟨Json.put name value c.values⟩

/-- What one name of a path selects in a value. -/
def select (name : String) : Json → Option Json
  | .object ms => ms.lookup name
  | .array items => (Text.unsigned? name.toList).bind fun n => items[n]?
  | _ => none

/-- The names of a path. -/
def pathNames (path : String) : List String := (Text.splitAt '.' path.toList).map String.ofList

/-- The value that a path leads to. -/
def lookup (c : Context) (path : String) : Option Json :=
  (pathNames path).foldlM (fun v name => select name v) c.toJson

end Context

end SnapshotLedger
