import Mathlib.Algebra.GroupWithZero.Nat
import SnapshotLedger.Proofs.Text.Search
import SnapshotLedger.SnapshotId

/-!
# Identifiers are read back

Every identifier is read back from its text (`ofText_text`).
-/

namespace SnapshotLedger.SnapshotId

/-- Every digit has its value and takes one byte. -/
theorem digit_facts : ∀ n < 32, digitValue? (digit n) = some n ∧ (digit n).utf8Size = 1 := by
  decide

/-- A digit depends on the last digit of a number only. -/
theorem digit_mod (n : Nat) : digit (n % 32) = digit n := by
  unfold digit
  rw [Nat.mod_mod]

/-- A number with one more digit. -/
theorem readDigits_append_digit (a n : Nat) (s : List Char) :
    readDigits a (s ++ [digit n]) = (readDigits a s).map fun m => 32 * m + n % 32 := by
  have hvalue : digitValue? (digit n) = some (n % 32) := by
    rw [← digit_mod]
    exact (digit_facts (n % 32) (Nat.mod_lt _ (by decide))).1
  induction s generalizing a with
  | nil =>
    rw [List.nil_append]
    unfold readDigits
    rw [hvalue]
    rfl
  | cons c s ih =>
    rw [List.cons_append, readDigits, readDigits]
    cases digitValue? c with
    | none => rfl
    | some d => exact ih (32 * a + d)

/-- The last digits of a number are read back. -/
theorem readDigits_digits (count n : Nat) : readDigits 0 (digits count n) = some (n % 32 ^ count) := by
  induction count generalizing n with
  | zero => rw [digits, readDigits, Nat.pow_zero, Nat.mod_one]
  | succ count ih =>
    rw [digits, readDigits_append_digit, ih, Option.map_some]
    congr 1
    rw [Nat.pow_succ', Nat.mod_mul, Nat.add_comm]

/-- An identifier has as many bytes as digits. -/
theorem utf8Length_digits (count n : Nat) : Text.utf8Length (digits count n) = count := by
  induction count generalizing n with
  | zero => rfl
  | succ count ih =>
    have hsize : (digit n).utf8Size = 1 := by
      rw [← digit_mod]
      exact (digit_facts (n % 32) (Nat.mod_lt _ (by decide))).2
    rw [digits, Text.utf8Length_append, ih, Text.utf8Length, Text.utf8Length, hsize]

/-- An identifier is read back. -/
theorem ofText_text (i : SnapshotId) : ofText i.text = .ok i := by
  have hlt : i.value.toNat < 32 ^ digitCount := Nat.lt_of_lt_of_le i.value.isLt (by decide)
  unfold ofText text
  rw [String.toList_ofList, utf8Length_digits, if_neg (by simp), readDigits_digits, Nat.mod_eq_of_lt hlt]
  dsimp only
  rw [BitVec.ofNat_toNat, BitVec.setWidth_eq]

/-- Identifiers of one text are the same. -/
theorem text_injective {i j : SnapshotId} (h : i.text = j.text) : i = j := by
  have hread := ofText_text i
  rw [h, ofText_text] at hread
  exact (Except.ok.inj hread).symm

end SnapshotLedger.SnapshotId
