import SnapshotLedger.Text.Search

/-!
# Identifiers of snapshots

An identifier is a number of 128 bits, written as twenty-six digits in base 32. The digits are the numerals and
the letters without `I`, `L`, `O` and `U`; both cases are read, and capitals are written. Twenty-six digits hold
two bits too many, which are dropped.
-/

namespace SnapshotLedger

/-- The identifier of a snapshot. -/
structure SnapshotId where
  value : BitVec 128
  deriving DecidableEq, Repr

instance : Inhabited SnapshotId := ⟨⟨0⟩⟩

/-- Why a text is no identifier. -/
inductive IdFault where
  | length
  | character
  deriving DecidableEq, Repr

/-- The fault in words. -/
def IdFault.message : IdFault → String
  | length => "invalid length"
  | character => "invalid character"

namespace SnapshotId

/-- The digits of base 32. -/
def alphabet : List Char := "0123456789ABCDEFGHJKMNPQRSTVWXYZ".toList

/-- The length of an identifier. -/
def digitCount : Nat := 26

/-- The value of a digit. -/
def digitValue? (c : Char) : Option Nat := alphabet.idxOf? c.toUpper

/-- The digit of a value. -/
def digit (n : Nat) : Char := (alphabet[n % 32]?).getD '0'

/-- The number with some more digits. -/
def readDigits (n : Nat) : List Char → Option Nat
  | [] => some n
  | c :: r => (digitValue? c).bind fun d => readDigits (32 * n + d) r

/-- The identifier that a text holds. -/
def ofText (s : String) : Except IdFault SnapshotId :=
  if Text.utf8Length s.toList ≠ digitCount then .error .length
  else match readDigits 0 s.toList with
    | some n => .ok ⟨BitVec.ofNat 128 n⟩
    | none => .error .character

/-- The last digits of a number, the highest first. -/
def digits : (count : Nat) → Nat → List Char
  | 0, _ => []
  | count + 1, n => digits count (n / 32) ++ [digit n]

/-- The identifier as text. -/
def text (i : SnapshotId) : String := String.ofList (digits digitCount i.value.toNat)

/-- The identifier made at a time in milliseconds, with eighty bits of chance. -/
def make (milliseconds chance : Nat) : SnapshotId := ⟨BitVec.ofNat 48 milliseconds ++ BitVec.ofNat 80 chance⟩

end SnapshotId

end SnapshotLedger
