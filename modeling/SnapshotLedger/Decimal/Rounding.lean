/-!
# Powers and rounded quotients

Numerals and binary numbers are scaled by powers of ten and of two, and what does not come out even is rounded.
A quotient is rounded to the nearest integer; which of two equally near ones is taken is a choice. Main
statements: the result is at most half a unit away (`le_two_mul_roundQuotient`, `two_mul_roundQuotient_le`).
-/

namespace SnapshotLedger

/-- Two to a power. -/
abbrev twoTo (k : Nat) : Nat := Nat.pow 2 k

/-- Ten to a power. -/
abbrev tenTo (k : Nat) : Nat := Nat.pow 10 k

/-- Which of two equally near integers is taken. -/
inductive Tie where
  | even
  | upper
  deriving DecidableEq, Repr

/-- The integer that is taken when the quotient lies in the middle between `q` and the next one. -/
def Tie.choose : Tie → Nat → Nat
  | even, q => q + q % 2
  | upper, q => q + 1

/-- The nearest integer to a quotient. -/
def roundQuotient (tie : Tie) (num den : Nat) : Nat :=
  let q := num / den
  let r := num % den
  if 2 * r < den then q else if den < 2 * r then q + 1 else tie.choose q

/-- The choice is one of the two. -/
theorem Tie.choose_eq (tie : Tie) (q : Nat) : tie.choose q = q ∨ tie.choose q = q + 1 := by
  cases tie with
  | even => simp only [choose]; omega
  | upper => exact .inr rfl

/-- The integer below the quotient is taken or the one above it, and it is not further away than the other. -/
theorem roundQuotient_eq (tie : Tie) (num den : Nat) :
    roundQuotient tie num den = num / den ∧ 2 * (num % den) ≤ den ∨
      roundQuotient tie num den = num / den + 1 ∧ den ≤ 2 * (num % den) := by
  unfold roundQuotient
  dsimp only
  split
  · next hbelow => exact .inl ⟨rfl, Nat.le_of_lt hbelow⟩
  split
  · next habove => exact .inr ⟨rfl, Nat.le_of_lt habove⟩
  · next hbelow habove =>
    exact (tie.choose_eq (num / den)).imp (⟨·, Nat.le_of_not_lt habove⟩) (⟨·, Nat.le_of_not_lt hbelow⟩)

/-- A rounded quotient is at most half a unit above the quotient. -/
theorem two_mul_roundQuotient_le (tie : Tie) (num den : Nat) : 2 * den * roundQuotient tie num den ≤ 2 * num + den := by
  have h := Nat.div_add_mod num den
  have same : 2 * den * (num / den) = 2 * (den * (num / den)) := Nat.mul_assoc ..
  rcases roundQuotient_eq tie num den with ⟨heq, -⟩ | ⟨heq, hnear⟩
  · rw [heq]
    omega
  · rw [heq, Nat.mul_add, Nat.mul_one]
    omega

/-- A rounded quotient is at most half a unit below the quotient. -/
theorem le_two_mul_roundQuotient (tie : Tie) (num : Nat) {den : Nat} (pos : 0 < den) :
    2 * num ≤ 2 * den * roundQuotient tie num den + den := by
  have h := Nat.div_add_mod num den
  have same : 2 * den * (num / den) = 2 * (den * (num / den)) := Nat.mul_assoc ..
  rcases roundQuotient_eq tie num den with ⟨heq, hnear⟩ | ⟨heq, -⟩
  · rw [heq]
    omega
  · rw [heq, Nat.mul_add, Nat.mul_one]
    have := Nat.mod_lt num pos
    omega

end SnapshotLedger
