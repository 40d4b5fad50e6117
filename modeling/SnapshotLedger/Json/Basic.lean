import SnapshotLedger.Decimal.Binary64

/-!
# JSON values

The values of the exchange format. Numbers are of two kinds that never compare equal: integers that fit in a
word, signed or not, and binary numbers. The members of an object keep the order in which they came; a key that
comes again keeps its place and takes the new value.
-/

namespace SnapshotLedger

/-- A value of the exchange format. -/
inductive Json where
  | null
  | bool (b : Bool)
  | integer (n : Int)
  | float (x : Binary64)
  | string (s : String)
  | array (items : List Json)
  | object (members : List (String × Json))
  deriving Inhabited, Repr

namespace Json

/-- The members with the value of one key replaced in its place, or added at the end. -/
def put (key : String) (value : Json) : List (String × Json) → List (String × Json)
  | [] => [(key, value)]
  | e :: r => if e.1 = key then (key, value) :: r else e :: put key value r

/-- The members of an object whose keys were read in this order. -/
def ofMembers (l : List (String × Json)) : List (String × Json) := l.foldl (fun m e => put e.1 e.2 m) []

/-- The text of a string. -/
def string? : Json → Option String
  | string s => some s
  | _ => none

/-- The member of an object with the given key. -/
def member? (key : String) : Json → Option Json
  | object ms => ms.lookup key
  | _ => none

/-- The least integer kept as a signed word. -/
def leastInteger : Int := -9223372036854775808

/-- The greatest integer kept as a signed word. -/
def greatestInteger : Int := 9223372036854775807

/-- The greatest integer kept as an unsigned word. -/
def greatestUnsigned : Nat := 18446744073709551615

/-- Whether an integer fits in a signed word. -/
def fitsSigned (n : Int) : Bool := leastInteger ≤ n && n ≤ greatestInteger

end Json

end SnapshotLedger
