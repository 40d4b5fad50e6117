import SnapshotLedger.Decimal.Binary64
import SnapshotLedger.Entries

/-!
# Rendered values

What rendering leaves of a field: plain data, in which an owner of template fields has become an object that
keeps its kind and the names of its template fields. Rendered values are what is redacted, stored and shown.

The entries of mappings and objects are meant to be in order of their keys, at every depth (`Rendered.Ordered`),
as they are in all values read from JSON.
-/

namespace SnapshotLedger

/-- A rendered value. -/
inductive Rendered where
  | null
  | bool (b : Bool)
  | integer (n : Int)
  | float (x : Binary64)
  | text (s : String)
  | sequence (items : List Rendered)
  | mapping (entries : List (String × Rendered))
  | object (kind : String) (templateFields : List String) (attributes : List (String × Rendered))
  deriving Inhabited, Repr

/-- Rendered fields by their names. -/
abbrev Fields := List (String × Rendered)

namespace Rendered

/-- The text of a text. -/
def text? : Rendered → Option String
  | text s => some s
  | _ => none

/-- Whether the value is null. -/
def isNull : Rendered → Bool
  | null => true
  | _ => false

/-- Whether the value is an object. -/
def isObject : Rendered → Bool
  | object .. => true
  | _ => false

mutual

/-- Equality of values, in which numbers are compared as numbers: the two zeros are equal, and a NaN equals nothing. -/
def same : Rendered → Rendered → Bool
  | null, null => true
  | bool a, bool b => a == b
  | integer m, integer n => m == n
  | float x, float y => x.sameNumber y
  | text s, text t => s == t
  | sequence vs, sequence ws => sameItems vs ws
  | mapping es, mapping fs => sameEntries es fs
  | object k ns es, object l ms fs => k == l && ns == ms && sameEntries es fs
  | _, _ => false

/-- Equality of sequences, item by item. -/
def sameItems : List Rendered → List Rendered → Bool
  | [], [] => true
  | v :: vs, w :: ws => same v w && sameItems vs ws
  | _, _ => false

/-- Equality of entries, one by one. -/
def sameEntries : List (String × Rendered) → List (String × Rendered) → Bool
  | [], [] => true
  | (k, v) :: es, (l, w) :: fs => k == l && same v w && sameEntries es fs
  | _, _ => false

end

mutual

/-- The entries of all mappings and objects are in order of their keys. -/
def Ordered : Rendered → Prop
  | null | bool _ | integer _ | float _ | text _ => True
  | sequence vs => OrderedItems vs
  | mapping es => Entries.Ordered es ∧ OrderedEntries es
  | object _ _ es => Entries.Ordered es ∧ OrderedEntries es

/-- All items are ordered. -/
def OrderedItems : List Rendered → Prop
  | [] => True
  | v :: vs => Ordered v ∧ OrderedItems vs

/-- The values of all entries are ordered. -/
def OrderedEntries : List (String × Rendered) → Prop
  | [] => True
  | (_, v) :: es => Ordered v ∧ OrderedEntries es

end

/-- The values of entries are ordered when each of them is. -/
theorem orderedEntries_iff (es : List (String × Rendered)) : OrderedEntries es ↔ ∀ e ∈ es, e.2.Ordered := by
  induction es with
  | nil => simp [OrderedEntries]
  | cons e es ih => simp [OrderedEntries, ih]

end Rendered

end SnapshotLedger
