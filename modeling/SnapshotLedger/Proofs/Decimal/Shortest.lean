import Mathlib.Data.List.TakeWhile
import SnapshotLedger.Decimal.Layout
import SnapshotLedger.Proofs.Decimal.Binary64
import SnapshotLedger.Proofs.Text.Digits

/-!
# What is written of a number

The decimal that is written of a finite number other than zero lies below the middle of the way to its upper
neighbour (`near_shortest`), so that only the two greatest numbers have a decimal that is close to the greatest
one (`le_of_near`). Its digits are those of its significand without the zeros that end them (`digits_spec`).
-/

namespace SnapshotLedger

namespace Decimal

/-- The decimal is positive, not far below one in its exponent, and lies below the middle of the way from a
number to its upper neighbour. -/
structure Near (d : Decimal) (x : Binary64) : Prop where
  pos : 0 < d.significand
  least : -416 ≤ d.exponent
  below : d.leBinary (4 * x.significand + 2) (x.exponent - 2) = true

/-- What is read as a number other than zero is positive, and lies below the middle of the way to its upper
neighbour. -/
theorem of_readsAs {d : Decimal} {x : Binary64} (h : d.readsAs x = true) (hx : 0 < x.significand) :
    0 < d.significand ∧ d.leBinary (4 * x.significand + 2) (x.exponent - 2) = true := by
  unfold readsAs at h
  dsimp only at h
  have hlow : 0 < if (decide (x.fractionField = 0) && decide (1 < x.exponentField)) = true then 4 * x.significand - 1
      else 4 * x.significand - 2 := by
    split <;> omega
  generalize (if (decide (x.fractionField = 0) && decide (1 < x.exponentField)) = true then 4 * x.significand - 1
      else 4 * x.significand - 2) = low at h hlow
  have hpos : 0 < low * twoTo (x.exponent - 2).toNat * tenTo (-d.exponent).toNat :=
    Nat.mul_pos (Nat.mul_pos hlow (Nat.two_pow_pos _)) (Nat.pow_pos (by decide))
  have hpositive : 0 < d.significand * tenTo d.exponent.toNat * twoTo (-(x.exponent - 2)).toNat → 0 < d.significand :=
    fun h => Nat.pos_of_mul_pos_right (Nat.pos_of_mul_pos_right h)
  by_cases heven : x.significand % 2 = 0
  · rw [if_pos heven, Bool.and_eq_true] at h
    exact ⟨hpositive (Nat.lt_of_lt_of_le hpos (of_decide_eq_true h.1)), h.2⟩
  · rw [if_neg heven, Bool.and_eq_true, Bool.not_eq_true', Bool.not_eq_true'] at h
    have hlarge := Nat.lt_of_not_le (of_decide_eq_false h.1)
    have hsmall := Nat.lt_of_not_le (of_decide_eq_false h.2)
    exact ⟨hpositive (Nat.lt_trans hpos hlarge), decide_eq_true (Nat.le_of_lt hsmall)⟩

/-- The neighbour of a number that is taken is read as it. -/
theorem readsAs_of_neighbour? {tie : Tie} {x : Binary64} {exponent : Int} {d : Decimal}
    (h : neighbour? tie x exponent = some d) : d.readsAs x = true ∧ d.exponent = exponent := by
  unfold neighbour? at h
  dsimp only at h
  split at h
  · next hlow hhigh =>
    cases h
    refine ⟨?_, rfl⟩
    rcases roundQuotient_eq tie (x.numerator * tenTo (-exponent).toNat)
      (x.denominator * tenTo exponent.toNat) with ⟨heq, -⟩ | ⟨heq, -⟩
    · rw [heq]
      exact hlow
    · rw [heq]
      exact hhigh
  · next hlow _ =>
    cases h
    exact ⟨hlow, rfl⟩
  · next _ hhigh =>
    cases h
    exact ⟨hhigh, rfl⟩
  · cases h

/-- Numbers other than zero have a positive significand. -/
theorem significand_pos {x : Binary64} (hx : x.isZero = false) : 0 < x.significand := by
  simp only [Binary64.isZero, Bool.and_eq_false_iff, beq_eq_false_iff_ne] at hx
  unfold Binary64.significand
  split
  · omega
  · exact Nat.lt_of_lt_of_le (Nat.two_pow_pos 52) (Nat.le_add_right _ _)

/-- What is written of a number is zero, or near the number. -/
theorem near_shortest (tie : Tie) {x : Binary64} (hx : x.isZero = false) :
    shortest tie x = ⟨0, 0⟩ ∨ (shortest tie x).Near x := by
  unfold shortest
  dsimp only
  cases hfound : (List.range 17).findSome? fun (k : Nat) => neighbour? tie x (leadingPower x - k) with
  | none => exact .inl rfl
  | some d =>
    obtain ⟨k, hk, hneighbour⟩ := List.exists_of_findSome?_eq_some hfound
    obtain ⟨hreads, hexponent⟩ := readsAs_of_neighbour? hneighbour
    obtain ⟨hpos, hbelow⟩ := of_readsAs hreads (significand_pos hx)
    have hrange := List.mem_range.1 hk
    refine .inr ⟨hpos, ?_, hbelow⟩
    rw [Option.getD_some, hexponent]
    unfold leadingPower
    omega

/-! ## Digits -/

/-- The digits of zero. -/
theorem digits_zero (exponent : Int) : digits ⟨0, exponent⟩ = ['0'] := by
  simp only [digits, Nat.toDigits_zero]
  rfl

/-- The digits of a positive decimal are those of its significand without the zeros that end them. -/
theorem digits_spec {d : Decimal} (h : 0 < d.significand) :
    ∃ c r zeros, d.digits = c :: r ∧ c ≠ '0' ∧ Nat.toDigits 10 d.significand = c :: r ++ List.replicate zeros '0' := by
  obtain ⟨first, others, hdigits, hfirst⟩ := Text.head_toDigits h
  obtain ⟨zeros, hall⟩ := Text.exists_zeros (Nat.toDigits 10 d.significand)
  unfold digits
  cases hkept : ((Nat.toDigits 10 d.significand).reverse.dropWhile (· = '0')).reverse with
  | nil =>
    rw [hkept, hdigits, List.nil_append] at hall
    have hmem : first ∈ List.replicate zeros '0' := hall ▸ List.mem_cons_self
    exact absurd (List.eq_of_mem_replicate hmem) hfirst
  | cons c r =>
    rw [hkept] at hall
    have hsame := hall.symm.trans hdigits
    rw [List.cons_append, List.cons.injEq] at hsame
    exact ⟨c, r, zeros, rfl, hsame.1 ▸ hfirst, hall⟩

/-- The power of ten that the first digit stands for, by the number of digits. -/
theorem firstPower_eq {d : Decimal} {c : Char} {r : List Char} {zeros : Nat}
    (h : Nat.toDigits 10 d.significand = c :: r ++ List.replicate zeros '0') :
    d.firstPower = d.exponent + r.length + zeros := by
  rw [firstPower, h, List.length_append, List.length_cons, List.length_replicate]
  omega

/-! ## Values -/

/-- What is no greater than a decimal near a number is a little smaller than the greatest number, unless the
number is one of the two greatest. -/
theorem le_of_near {d : Decimal} {x : Binary64} (h : d.Near x) (hx : x.isFinite = true)
    (hgreatest : ¬(x.exponent = 971 ∧ twoTo 53 - 2 ≤ x.significand)) {n power : Nat}
    (hn : n * tenTo power * tenTo (-d.exponent).toNat ≤ d.significand * tenTo d.exponent.toNat) :
    ∃ k ≤ 970, n * tenTo power ≤ (twoTo 54 - 5) * twoTo k := by
  have h53 : twoTo 53 = 9007199254740992 := rfl
  have h54 : twoTo 54 - 5 = 18014398509481979 := rfl
  have hten : 0 < tenTo (-d.exponent).toNat := Nat.pow_pos (by decide)
  have hsignificand := x.significand_lt
  have hexponent : x.exponent ≤ 971 := x.exponent_le hx
  have hbelow : n * tenTo power ≤ (4 * x.significand + 2) * twoTo (x.exponent - 2).toNat := by
    refine Nat.le_of_mul_le_mul_right ?_ hten
    calc n * tenTo power * tenTo (-d.exponent).toNat ≤ d.significand * tenTo d.exponent.toNat := hn
      _ ≤ d.significand * tenTo d.exponent.toNat * twoTo (-(x.exponent - 2)).toNat :=
          Nat.le_mul_of_pos_right _ (Nat.two_pow_pos _)
      _ ≤ (4 * x.significand + 2) * twoTo (x.exponent - 2).toNat * tenTo (-d.exponent).toNat :=
        of_decide_eq_true h.below
  have hpow : ∀ i, twoTo ((x.exponent - 2).toNat + i) = twoTo i * twoTo (x.exponent - 2).toNat := by
    intro i
    rw [Nat.add_comm]
    exact Nat.pow_add 2 i _
  by_cases hsmall : x.significand ≤ twoTo 53 - 3
  · refine ⟨(x.exponent - 2).toNat + 1, by omega, Nat.le_trans hbelow ?_⟩
    rw [hpow, ← Nat.mul_assoc]
    refine Nat.mul_le_mul_right _ ?_
    rw [h54, show twoTo 1 = 2 from rfl]
    omega
  · have hlower : x.exponent ≤ 970 := by omega
    refine ⟨(x.exponent - 2).toNat + 2, by omega, Nat.le_trans hbelow ?_⟩
    rw [hpow, ← Nat.mul_assoc]
    refine Nat.mul_le_mul_right _ ?_
    rw [h54, show twoTo 2 = 4 from rfl]
    omega

end Decimal

/-! ## Signs and the greatest numbers -/

namespace NumberLayout

/-- Documents hold zero, or a decimal near the number. -/
theorem unsigned_spec (x : Binary64) : exchange.unsigned x = exchange.fixedDigits ['0'] 0 ∨ ∃ d : Decimal, d.Near x ∧
    exchange.unsigned x = if exchange.positional d.firstPower then exchange.fixedDigits d.digits d.firstPower
      else scientificDigits d.digits d.firstPower := by
  have hzero : exchange.positional (Decimal.firstPower ⟨0, 0⟩) = true ∧ Decimal.firstPower ⟨0, 0⟩ = 0 := by decide
  unfold unsigned
  dsimp only
  cases hisZero : x.isZero with
  | true =>
    rw [if_pos rfl, if_pos hzero.1, Decimal.digits_zero, hzero.2]
    exact .inl rfl
  | false =>
    rw [if_neg Bool.false_ne_true]
    rcases Decimal.near_shortest exchange.tie hisZero with heq | hnear
    · rw [heq, if_pos hzero.1, Decimal.digits_zero, hzero.2]
      exact .inl rfl
    · exact .inr ⟨_, hnear, rfl⟩

/-- The digits of a number depend on its fields, not on its sign. -/
theorem unsigned_congr (layout : NumberLayout) {x y : Binary64} (hexponent : x.exponentField = y.exponentField)
    (hfraction : x.fractionField = y.fractionField) : layout.unsigned x = layout.unsigned y := by
  have hzero : x.isZero = y.isZero := by rw [Binary64.isZero, Binary64.isZero, hexponent, hfraction]
  have hsignificand :
      x.significand = y.significand := by rw [Binary64.significand, Binary64.significand, hexponent, hfraction]
  have hpower : x.exponent = y.exponent := by rw [Binary64.exponent, Binary64.exponent, hexponent]
  have hreads : ∀ d : Decimal, d.readsAs x = d.readsAs y := by
    intro d
    rw [Decimal.readsAs, Decimal.readsAs, hsignificand, hpower, hexponent, hfraction]
  have hneighbour : ∀ e, Decimal.neighbour? layout.tie x e = Decimal.neighbour? layout.tie y e := by
    intro e
    simp only [Decimal.neighbour?, Binary64.numerator, Binary64.denominator, hreads, hsignificand, hpower]
  have hshortest : Decimal.shortest layout.tie x = Decimal.shortest layout.tie y := by
    simp only [Decimal.shortest, hneighbour, Decimal.leadingPower, Binary64.numerator, Binary64.denominator,
      hsignificand, hpower]
  rw [unsigned, unsigned, hzero, hshortest]

/-- What documents hold of the two greatest numbers. -/
theorem unsigned_greatest {x : Binary64} (hexponent : x.exponent = 971) (hsignificand : twoTo 53 - 2 ≤ x.significand) :
    exchange.unsigned x = '1' :: '.' :: (Nat.toDigits 10 7976931348623155 ++ 'e' :: '+' :: Nat.toDigits 10 308) ∨
      exchange.unsigned x = '1' :: '.' :: (Nat.toDigits 10 7976931348623157 ++ 'e' :: '+' :: Nat.toDigits 10 308) := by
  have h52 : twoTo 52 = 4503599627370496 := rfl
  have h53 : twoTo 53 = 9007199254740992 := rfl
  have hlt := x.significand_lt
  have hfield : x.exponentField = 2046 := by
    unfold Binary64.exponent at hexponent
    split at hexponent <;> omega
  have hfraction : x.fractionField = twoTo 52 - 2 ∨ x.fractionField = twoTo 52 - 1 := by
    unfold Binary64.significand at hsignificand hlt
    rw [hfield, if_neg (by decide)] at hsignificand hlt
    omega
  have hfields : ∀ f < twoTo 52, (Binary64.ofFields false 2046 f).exponentField = 2046 ∧
      (Binary64.ofFields false 2046 f).fractionField = f := fun f hf => Binary64.fields_ofFields false (by decide) hf
  rcases hfraction with heq | heq
  · obtain ⟨hfirst, hsecond⟩ := hfields (twoTo 52 - 2) (by decide)
    rw [unsigned_congr exchange (hfield.trans hfirst.symm) (heq.trans hsecond.symm)]
    exact .inl (by decide +kernel)
  · obtain ⟨hfirst, hsecond⟩ := hfields (twoTo 52 - 1) (by decide)
    rw [unsigned_congr exchange (hfield.trans hfirst.symm) (heq.trans hsecond.symm)]
    exact .inr (by decide +kernel)

end NumberLayout

end SnapshotLedger
