import SnapshotLedger.Text.Search

/-!
# Texts as octets

Names of files are rows of octets, and most of them spell a text in UTF-8. `ofOctets` reads such a row as a text
for messages: where the octets spell no character, a sign of replacement stands for as many of them as begin
one.
-/

namespace SnapshotLedger.Text

/-- The octets that spell a text in UTF-8. -/
def octets (s : List Char) : List UInt8 := s.flatMap String.utf8EncodeChar

/-- The usual octets behind the first one of a character. -/
def continuation : Nat × Nat := (0x80, 0xBF)

/-- What the first octet of a character says: its part of the code point, and between which bounds each of the
octets behind it has to be. The bounds leave out longer spellings than needed, surrogates, and what is beyond
the last code point. -/
def leading? (o : UInt8) : Option (Nat × List (Nat × Nat)) :=
  let n := o.toNat
  if n < 0x80 then some (n, [])
  else if 0xC2 ≤ n && n ≤ 0xDF then some (n - 0xC0, [continuation])
  else if n = 0xE0 then some (0, [(0xA0, 0xBF), continuation])
  else if n = 0xED then some (0xD, [(0x80, 0x9F), continuation])
  else if 0xE1 ≤ n && n ≤ 0xEF then some (n - 0xE0, [continuation, continuation])
  else if n = 0xF0 then some (0, [(0x90, 0xBF), continuation, continuation])
  else if 0xF1 ≤ n && n ≤ 0xF3 then some (n - 0xF0, [continuation, continuation, continuation])
  else if n = 0xF4 then some (4, [(0x80, 0x8F), continuation, continuation])
  else none

/-- Goes on with a code point while the octets are within their bounds: the code point if it is complete, and
the octets behind. -/
def readTail (value : Nat) : (bounds : List (Nat × Nat)) → List UInt8 → Option Nat × List UInt8
  | [], r => (some value, r)
  | _, [] => (none, [])
  | b :: bs, o :: r =>
    if b.1 ≤ o.toNat && o.toNat ≤ b.2 then readTail (64 * value + (o.toNat - 0x80)) bs r else (none, o :: r)

/-- Reading on never makes the octets more. -/
theorem length_readTail (value : Nat) (bounds : List (Nat × Nat)) (os : List UInt8) :
    (readTail value bounds os).2.length ≤ os.length := by
  fun_induction readTail value bounds os with
  | case1 => exact Nat.le_refl _
  | case2 => exact Nat.le_refl _
  | case3 _ _ _ _ _ _ ih => exact Nat.le_succ_of_le ih
  | case4 => exact Nat.le_refl _

/-- What stands for octets that spell no character. -/
def replacement : Char := '\uFFFD'

/-- The text that octets spell. -/
def ofOctets : List UInt8 → List Char
  | [] => []
  | o :: r =>
    match leading? o with
    | none => replacement :: ofOctets r
    | some (value, bounds) =>
      (match (readTail value bounds r).1 with
        | some n => Char.ofNat n
        | none => replacement) :: ofOctets (readTail value bounds r).2
termination_by os => os.length
decreasing_by
  · simp
  · have := length_readTail value bounds r
    simp only [List.length_cons]
    omega

end SnapshotLedger.Text
