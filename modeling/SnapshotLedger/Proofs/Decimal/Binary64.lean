import Mathlib.Tactic.Ring
import SnapshotLedger.Decimal.Binary64

/-!
# Which numbers are finite

The nearest number to a quotient is finite unless the quotient is very large (`exponentField_ofRatio_le`); so
are the nearest numbers to integers that are words (`isFinite_ofInt`), and whatever a decimal with a significand
of one word is read as (`isFinite_of_ofScientific?`).
-/

namespace SnapshotLedger.Binary64

/-! ## Fields -/

/-- The fields of a number made of fields. -/
theorem fields_ofFields (negative : Bool) {e f : Nat} (he : e < 2048) (hf : f < twoTo 52) :
    (ofFields negative e f).exponentField = e ∧ (ofFields negative e f).fractionField = f := by
  have h52 : twoTo 52 = 4503599627370496 := rfl
  have h63 : twoTo 63 = 9223372036854775808 := rfl
  have hword : ((if negative = true then twoTo 63 else 0) + e * twoTo 52 + f) < 18446744073709551616 := by
    rw [h63, h52]
    split <;> omega
  have hbits : (ofFields negative e f).bits.toNat = (if negative = true then twoTo 63 else 0) + e * twoTo 52 + f := by
    rw [ofFields, UInt64.toNat_ofNat', Nat.mod_eq_of_lt hword]
  rw [exponentField, fractionField, hbits, h63, h52]
  split <;> omega

/-- Numbers with a smaller exponent than the greatest are finite. -/
theorem isFinite_of_le {x : Binary64} (h : x.exponentField ≤ 2046) : x.isFinite = true := by
  rw [isFinite, bne_iff_ne]
  omega

/-- Zeros have the least exponent. -/
theorem exponentField_zero (negative : Bool) : (zero negative).exponentField = 0 :=
  (fields_ofFields negative (by decide) (Nat.two_pow_pos 52)).1

/-- A change of sign leaves the exponent. -/
theorem exponentField_withSign (negative : Bool) (x : Binary64) :
    (x.withSign negative).exponentField = x.exponentField :=
  (fields_ofFields negative (Nat.mod_lt _ (by decide)) (Nat.mod_lt _ (Nat.two_pow_pos 52))).1

/-- The exponent of a number that is packed. -/
theorem exponentField_pack_le (negative : Bool) {m k : Nat} {q : Int} (hm : m < twoTo 53) (hk : k ≤ 2046)
    (hq : q + 1075 ≤ k) :
    (pack negative m q).exponentField ≤ k := by
  have h52 : twoTo 52 = 4503599627370496 := rfl
  have h53 : twoTo 53 = 9007199254740992 := rfl
  unfold pack
  split
  · next hsmall =>
    rw [(fields_ofFields negative (by decide) hsmall).1]
    exact Nat.zero_le k
  split
  · omega
  · rw [(fields_ofFields negative (show (q + 1075).toNat < 2048 by omega) (show m - twoTo 52 < twoTo 52 by omega)).1]
    omega

/-! ## Rounding -/

/-- Powers of two are compared by their exponents. -/
theorem mul_twoTo_lt {a b i j k l : Nat} (ha : a < twoTo i) (hb : twoTo j ≤ b) (h : i + k ≤ 53 + (j + l)) :
    a * twoTo k < twoTo 53 * (b * twoTo l) := by
  have hk : 0 < twoTo k := Nat.two_pow_pos k
  calc a * twoTo k < twoTo i * twoTo k := Nat.mul_lt_mul_of_pos_right ha hk
    _ = 2 ^ (i + k) := (Nat.pow_add 2 i k).symm
    _ ≤ 2 ^ (53 + (j + l)) := Nat.pow_le_pow_right (by decide) h
    _ = twoTo 53 * (twoTo j * twoTo l) := by rw [Nat.pow_add, Nat.pow_add]; rfl
    _ ≤ twoTo 53 * (b * twoTo l) := Nat.mul_le_mul_left _ (Nat.mul_le_mul_right _ hb)

/-- A quotient with fewer than fifty-two bits above a place has fewer than fifty-three above the next lower one. -/
theorem lower_place {num den : Nat} {q : Int} (h : num * twoTo (-q).toNat < twoTo 52 * den * twoTo q.toNat) :
    num * twoTo (-(q - 1)).toNat < twoTo 53 * (den * twoTo (q - 1).toNat) := by
  have h53 : twoTo 53 = 2 * twoTo 52 := rfl
  have hsucc : ∀ k, twoTo (k + 1) = twoTo k * 2 := fun k => Nat.pow_succ 2 k
  rcases Int.lt_or_le 0 q with hpos | hneg
  · rw [show (-(q - 1)).toNat = (-q).toNat by omega]
    rw [show q.toNat = (q - 1).toNat + 1 by omega, hsucc] at h
    calc num * twoTo (-q).toNat < twoTo 52 * den * (twoTo (q - 1).toNat * 2) := h
      _ = twoTo 53 * (den * twoTo (q - 1).toNat) := by rw [h53]; ring
  · rw [show (-(q - 1)).toNat = (-q).toNat + 1 by omega, show (q - 1).toNat = q.toNat by omega, hsucc]
    calc num * (twoTo (-q).toNat * 2) = num * twoTo (-q).toNat * 2 := (Nat.mul_assoc ..).symm
      _ < twoTo 52 * den * twoTo q.toNat * 2 := Nat.mul_lt_mul_of_pos_right h (by decide)
      _ = twoTo 53 * (den * twoTo q.toNat) := by rw [h53]; ring

/-- The last place of a quotient is not far above its first bit, and the quotient has no more than fifty-three
bits above it. -/
theorem lastPlace_spec (num : Nat) {den : Nat} (hden : den ≠ 0) :
    num * twoTo (-lastPlace num den).toNat < twoTo 53 * (den * twoTo (lastPlace num den).toNat) ∧
      lastPlace num den ≤ max ((num.log2 : Int) - den.log2 - 52) (-1074) := by
  have hnum : num < twoTo (num.log2 + 1) := Nat.lt_log2_self
  have hlow : twoTo den.log2 ≤ den := Nat.log2_self_le hden
  have hlarge : ∀ q : Int, (num.log2 : Int) - den.log2 - 52 ≤ q →
      num * twoTo (-q).toNat < twoTo 53 * (den * twoTo q.toNat) :=
    fun q hq => mul_twoTo_lt hnum hlow (by omega)
  unfold lastPlace
  dsimp only
  generalize (num.log2 : Int) - den.log2 - 52 = q at hlarge ⊢
  split
  · next hsmall =>
    refine ⟨?_, by omega⟩
    rcases Int.le_total (-1074) (q - 1) with hle | hle
    · rw [Int.max_eq_left hle]
      exact lower_place hsmall
    · by_cases heq : q - 1 = -1074
      · rw [heq, Int.max_self, ← heq]
        exact lower_place hsmall
      · rw [Int.max_eq_right hle]
        exact hlarge _ (by omega)
  · exact ⟨hlarge _ (Int.le_max_left _ _), Int.le_refl _⟩

/-- A quotient below a number of places is rounded to no more than that number. -/
theorem roundQuotient_le (tie : Tie) {num den n : Nat} (h : num < n * den) : roundQuotient tie num den ≤ n := by
  have hround := two_mul_roundQuotient_le tie num den
  refine Nat.le_of_not_lt fun hlt => ?_
  have hle : 2 * den * (n + 1) ≤ 2 * den * roundQuotient tie num den := Nat.mul_le_mul_left _ hlt
  have hexpand : 2 * den * (n + 1) = 2 * (n * den) + 2 * den := by ring
  omega

/-- The exponent of the nearest number to a quotient that is not too large. -/
theorem exponentField_ofRatio_le (negative : Bool) {num den k : Nat} (hden : den ≠ 0) (h : num.log2 ≤ den.log2 + k)
    (hk : k ≤ 1000) : (ofRatio negative num den).exponentField ≤ k + 1024 := by
  obtain ⟨hbits, hplace⟩ := lastPlace_spec num hden
  unfold ofRatio
  split
  · rw [exponentField_zero]
    omega
  dsimp only
  have hround := roundQuotient_le .even hbits
  generalize roundQuotient .even (num * twoTo (-lastPlace num den).toNat)
    (den * twoTo (lastPlace num den).toNat) = m at hround ⊢
  split
  · exact exponentField_pack_le negative (by decide) (by omega) (by omega)
  · next hne => exact exponentField_pack_le negative (Nat.lt_of_le_of_ne hround hne) (by omega) (by omega)

/-! ## Integers and decimals -/

/-- The exponent of the nearest number to an integer that is a word. -/
theorem exponentField_ofRatio_one (negative : Bool) {n : Nat} (h : n < twoTo 64) :
    (ofRatio negative n 1).exponentField ≤ 1088 := by
  refine exponentField_ofRatio_le (k := 64) negative Nat.one_ne_zero ?_ (by decide)
  by_cases hn : n = 0
  · rw [hn]
    exact Nat.zero_le _
  · have hlog := (Nat.log2_lt hn).2 h
    omega

/-- The nearest number to an integer that is a word is finite. -/
theorem isFinite_ofInt {n : Int} (h : n.natAbs < twoTo 64) : (ofInt n).isFinite = true :=
  isFinite_of_le (Nat.le_trans (exponentField_ofRatio_one _ h) (by decide))

/-- The significand has at most fifty-three bits. -/
theorem significand_lt (x : Binary64) : x.significand < twoTo 53 := by
  have h53 : twoTo 53 = 2 * twoTo 52 := rfl
  have hfraction : x.fractionField < twoTo 52 := Nat.mod_lt _ (Nat.two_pow_pos 52)
  unfold significand
  split <;> omega

/-- The exponent of a finite number. -/
theorem exponent_le {x : Binary64} (h : x.isFinite = true) : x.exponent ≤ 971 := by
  have hfield : x.exponentField < 2048 := Nat.mod_lt _ (by decide)
  rw [isFinite, bne_iff_ne] at h
  unfold exponent
  split <;> omega

/-- A number is not much greater than the power of two that its exponent stands for. -/
theorem numerator_lt {x : Binary64} {k : Nat} (h : x.exponentField ≤ k + 1023) (hk : 1 ≤ k) :
    x.numerator < twoTo (k + 1) * x.denominator := by
  have hpow : 53 + x.exponent.toNat ≤ k + 1 + (-x.exponent).toNat := by
    unfold exponent
    split <;> omega
  calc x.numerator < twoTo 53 * twoTo x.exponent.toNat :=
        Nat.mul_lt_mul_of_pos_right x.significand_lt (Nat.two_pow_pos _)
    _ = 2 ^ (53 + x.exponent.toNat) := (Nat.pow_add 2 53 _).symm
    _ ≤ 2 ^ (k + 1 + (-x.exponent).toNat) := Nat.pow_le_pow_right (by decide) hpow
    _ = twoTo (k + 1) * x.denominator := Nat.pow_add 2 (k + 1) _

/-- A number whose exponent is that of one or greater is at least one. -/
theorem denominator_le_numerator {x : Binary64} (h : 1023 ≤ x.exponentField) : x.denominator ≤ x.numerator := by
  have hsig : twoTo 52 ≤ x.significand := by
    unfold significand
    split
    · omega
    · exact Nat.le_add_right _ _
  have hpow : (-x.exponent).toNat ≤ 52 + x.exponent.toNat := by
    unfold exponent
    split <;> omega
  calc x.denominator ≤ 2 ^ (52 + x.exponent.toNat) := Nat.pow_le_pow_right (by decide) hpow
    _ = twoTo 52 * twoTo x.exponent.toNat := Nat.pow_add 2 52 _
    _ ≤ x.numerator := Nat.mul_le_mul_right _ hsig

/-- The exponent of a quotient by a number that is at least one. -/
theorem exponentField_divAbs_le {x y : Binary64} {k : Nat} (hx : x.exponentField ≤ k + 1023) (hk : 1 ≤ k)
    (hk' : k ≤ 900) (hy : 1023 ≤ y.exponentField) : (divAbs x y).exponentField ≤ k + 2 + 1023 := by
  have hden : 0 < x.denominator := Nat.two_pow_pos _
  have hydenpos : 0 < y.denominator := Nat.two_pow_pos _
  have hle := denominator_le_numerator hy
  have hprod : x.denominator * y.numerator ≠ 0 :=
    Nat.ne_of_gt (Nat.mul_pos hden (Nat.lt_of_lt_of_le hydenpos hle))
  have hnum : x.numerator * y.denominator < twoTo (k + 1) * (x.denominator * y.numerator) := by
    calc x.numerator * y.denominator < twoTo (k + 1) * x.denominator * y.denominator :=
          Nat.mul_lt_mul_of_pos_right (numerator_lt hx hk) hydenpos
      _ = twoTo (k + 1) * (x.denominator * y.denominator) := Nat.mul_assoc ..
      _ ≤ twoTo (k + 1) * (x.denominator * y.numerator) := Nat.mul_le_mul_left _ (Nat.mul_le_mul_left _ hle)
  have hlog : (x.numerator * y.denominator).log2 ≤ (x.denominator * y.numerator).log2 + (k + 1) := by
    by_cases hzero : x.numerator * y.denominator = 0
    · rw [hzero]
      exact Nat.zero_le _
    · refine Nat.le_of_lt_succ ((Nat.log2_lt hzero).2 (Nat.lt_of_lt_of_le hnum ?_))
      have hup : x.denominator * y.numerator ≤ 2 ^ ((x.denominator * y.numerator).log2 + 1) :=
        Nat.le_of_lt Nat.lt_log2_self
      calc twoTo (k + 1) * (x.denominator * y.numerator)
          ≤ 2 ^ (k + 1) * 2 ^ ((x.denominator * y.numerator).log2 + 1) := Nat.mul_le_mul_left _ hup
        _ = 2 ^ ((x.denominator * y.numerator).log2 + (k + 1) + 1) := by rw [← Nat.pow_add]; congr 1; omega
  exact Nat.le_trans (exponentField_ofRatio_le false hprod hlog (by omega)) (by omega)

/-- A quotient of at least a number is rounded to at least that number. -/
theorem le_roundQuotient (tie : Tie) {num den n : Nat} (hden : 0 < den) (h : n * den ≤ num) :
    n ≤ roundQuotient tie num den := by
  have hround := le_two_mul_roundQuotient tie num hden
  refine Nat.le_of_not_lt fun hlt => ?_
  have hle : 2 * den * (roundQuotient tie num den + 1) ≤ 2 * den * n := Nat.mul_le_mul_left _ hlt
  have hexpand : 2 * den * (roundQuotient tie num den + 1) = 2 * den * roundQuotient tie num den + 2 * den := by ring
  have hswap : 2 * den * n = 2 * (n * den) := by ring
  omega

/-- The exponent of a number that is packed with all its bits. -/
theorem le_exponentField_pack (negative : Bool) {m k : Nat} {q : Int} (hlow : twoTo 52 ≤ m) (hm : m < twoTo 53)
    (hk : k ≤ 2047) (hq : (k : Int) ≤ q + 1075) : k ≤ (pack negative m q).exponentField := by
  have h52 : twoTo 52 = 4503599627370496 := rfl
  have h53 : twoTo 53 = 9007199254740992 := rfl
  unfold pack
  rw [if_neg (Nat.not_lt.2 hlow)]
  split
  · rw [infinity, (fields_ofFields negative (by decide) (Nat.two_pow_pos 52)).1]
    exact hk
  · rw [(fields_ofFields negative (show (q + 1075).toNat < 2048 by omega) (show m - twoTo 52 < twoTo 52 by omega)).1]
    omega

/-- The last place of a positive integer leaves it all fifty-three bits. -/
theorem lastPlace_one {n : Nat} (hn : n ≠ 0) : lastPlace n 1 = (n.log2 : Int) - 52 ∧
    twoTo 52 * twoTo (lastPlace n 1).toNat ≤ n * twoTo (-lastPlace n 1).toNat := by
  have hfull : twoTo 52 * twoTo ((n.log2 : Int) - 52).toNat ≤ n * twoTo (-((n.log2 : Int) - 52)).toNat := by
    calc twoTo 52 * twoTo ((n.log2 : Int) - 52).toNat
        = 2 ^ (52 + ((n.log2 : Int) - 52).toNat) := (Nat.pow_add 2 52 _).symm
      _ = 2 ^ (n.log2 + (-((n.log2 : Int) - 52)).toNat) := by congr 1; omega
      _ = 2 ^ n.log2 * 2 ^ (-((n.log2 : Int) - 52)).toNat := Nat.pow_add ..
      _ ≤ n * twoTo (-((n.log2 : Int) - 52)).toNat := Nat.mul_le_mul_right _ (Nat.log2_self_le hn)
  have hplace : lastPlace n 1 = (n.log2 : Int) - 52 := by
    have hone : Nat.log2 1 = 0 := rfl
    unfold lastPlace
    rw [hone, Int.natCast_zero, Int.sub_zero]
    dsimp only
    rw [Nat.mul_one, if_neg (Nat.not_lt.2 hfull)]
    omega
  rw [hplace]
  exact ⟨rfl, hfull⟩

/-- A positive integer is rounded to all fifty-three bits. -/
theorem le_rounded_one {n : Nat} (hn : n ≠ 0) :
    twoTo 52 ≤ roundQuotient .even (n * twoTo (-lastPlace n 1).toNat) (1 * twoTo (lastPlace n 1).toNat) := by
  refine le_roundQuotient .even (Nat.mul_pos Nat.one_pos (Nat.two_pow_pos _)) ?_
  rw [Nat.one_mul]
  exact (lastPlace_one hn).2

/-- The nearest numbers to positive integers are at least one. -/
theorem le_exponentField_ofRatio_one (negative : Bool) {n : Nat} (hn : n ≠ 0) :
    1023 ≤ (ofRatio negative n 1).exponentField := by
  have hplace := (lastPlace_one hn).1
  have hupper := roundQuotient_le .even (lastPlace_spec n Nat.one_ne_zero).1
  have hlower := le_rounded_one hn
  unfold ofRatio
  rw [if_neg hn]
  dsimp only
  generalize roundQuotient .even (n * twoTo (-lastPlace n 1).toNat)
    (1 * twoTo (lastPlace n 1).toNat) = m at hupper hlower ⊢
  rw [hplace]
  split
  · exact le_exponentField_pack negative (Nat.le_refl _) (by decide) (by decide) (by omega)
  · next hne => exact le_exponentField_pack negative hlower (Nat.lt_of_le_of_ne hupper hne) (by decide) (by omega)

/-- Powers of ten are at least one. -/
theorem le_exponentField_powerOfTen (k : Nat) : 1023 ≤ (powerOfTen k).exponentField :=
  le_exponentField_ofRatio_one false (Nat.ne_of_gt (Nat.pow_pos (by decide)))

/-- What a decimal with a significand of one word is read as is finite. -/
theorem isFinite_of_ofScientific? {negative : Bool} {significand : Nat} {exponent : Int} {x : Binary64}
    (h : ofScientific? negative significand exponent = some x) (hs : significand < twoTo 64) : x.isFinite = true := by
  have hm : (ofRatio false significand 1).exponentField ≤ 65 + 1023 := exponentField_ofRatio_one false hs
  have hzero : (zero negative).isFinite = true := isFinite_of_le (by rw [exponentField_zero]; exact Nat.zero_le _)
  have hsign : ∀ {y : Binary64}, y.exponentField ≤ 2046 → (y.withSign negative).isFinite = true := fun {y} hy =>
    isFinite_of_le (by rw [exponentField_withSign]; exact hy)
  unfold ofScientific? at h
  dsimp only at h
  split at h
  · cases h
    exact hzero
  split at h
  · split at h
    · cases h
    split at h
    · next hfinite =>
      cases h
      rw [isFinite, exponentField_withSign]
      exact hfinite
    · cases h
  split at h
  · cases h
    exact hsign
      (Nat.le_trans (exponentField_divAbs_le hm (by decide) (by decide) (le_exponentField_powerOfTen _)) (by decide))
  split at h
  · cases h
    have hfirst := exponentField_divAbs_le hm (by decide) (by decide) (le_exponentField_powerOfTen 308)
    exact hsign (Nat.le_trans (exponentField_divAbs_le hfirst (by decide) (by decide)
      (le_exponentField_powerOfTen _)) (by decide))
  · cases h
    exact hzero

end SnapshotLedger.Binary64
