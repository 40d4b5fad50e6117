import SnapshotLedger.Proofs.Decimal.Binary64

/-!
# Which decimals are read

A quotient is rounded to a finite number when it lies below the middle between the greatest number and the next
power of two (`isFinite_ofRatio`). A decimal is read in three roundings, of its significand, of a power of ten
and of their product, each of which adds at most one part in `2 ^ 53` (`numerator_ofRatio_one_le`); so decimals
with a negative exponent are always read (`exists_ofScientific?_of_neg`), and others when they are a little
smaller than the greatest number (`exists_ofScientific?`).
-/

namespace SnapshotLedger.Binary64

/-! ## Finite quotients -/

/-- Unless it is that of the subnormal numbers, the last place of a quotient leaves it all fifty-three bits. -/
theorem le_of_lastPlace {num den : Nat} (hnum : num ≠ 0) (h : -1074 < lastPlace num den) :
    twoTo 52 * (den * twoTo (lastPlace num den).toNat) ≤ num * twoTo (-lastPlace num den).toNat := by
  have hlow : twoTo num.log2 ≤ num := Nat.log2_self_le hnum
  have hden : den < twoTo (den.log2 + 1) := Nat.lt_log2_self
  unfold lastPlace at h ⊢
  dsimp only at h ⊢
  split at h
  · next hsmall =>
    rw [if_pos hsmall]
    have hplace : max ((num.log2 : Int) - den.log2 - 52 - 1) (-1074) = num.log2 - den.log2 - 53 := by omega
    rw [hplace]
    have hpow : 52 + (den.log2 + 1 + ((num.log2 : Int) - den.log2 - 53).toNat) =
        num.log2 + (-((num.log2 : Int) - den.log2 - 53)).toNat := by omega
    generalize ((num.log2 : Int) - den.log2 - 53).toNat = up at hpow ⊢
    generalize (-((num.log2 : Int) - den.log2 - 53)).toNat = down at hpow ⊢
    calc twoTo 52 * (den * twoTo up) ≤ twoTo 52 * (twoTo (den.log2 + 1) * twoTo up) :=
          Nat.mul_le_mul_left _ (Nat.mul_le_mul_right _ (Nat.le_of_lt hden))
      _ = 2 ^ (52 + (den.log2 + 1 + up)) := by rw [Nat.pow_add, Nat.pow_add]; rfl
      _ = twoTo num.log2 * twoTo down := by rw [hpow, Nat.pow_add]; rfl
      _ ≤ num * twoTo down := Nat.mul_le_mul_right _ hlow
  · next hlarge =>
    rw [if_neg hlarge]
    have hplace : max ((num.log2 : Int) - den.log2 - 52) (-1074) = num.log2 - den.log2 - 52 := by omega
    rw [hplace, ← Nat.mul_assoc]
    exact Nat.not_lt.1 hlarge

/-- The last place of a quotient that lies below the middle between the greatest number of a binade and the next
power of two. -/
theorem rounded_of_lt {num den k : Nat} (hnum : num ≠ 0) (h : num < den * ((twoTo 54 - 1) * twoTo k)) :
    lastPlace num den ≤ k + 1 ∧
      (roundQuotient .even (num * twoTo (-lastPlace num den).toNat) (den * twoTo (lastPlace num den).toNat) = twoTo 53 →
        lastPlace num den ≤ k) := by
  have hplace : lastPlace num den ≤ k + 1 := by
    by_contra hlt
    have hfull := le_of_lastPlace hnum (show -1074 < lastPlace num den by omega)
    rw [show (-lastPlace num den).toNat = 0 by omega, show twoTo 0 = 1 from rfl, Nat.mul_one] at hfull
    have hmiddle : (twoTo 54 - 1) * twoTo k ≤ twoTo 52 * twoTo (k + 2) := by
      calc (twoTo 54 - 1) * twoTo k ≤ twoTo 52 * 4 * twoTo k := Nat.mul_le_mul_right _ (Nat.sub_le _ _)
        _ = twoTo 52 * twoTo (k + 2) := by rw [show twoTo (k + 2) = twoTo k * 4 from Nat.pow_add 2 k 2]; ring
    have hpow : twoTo (k + 2) ≤ twoTo (lastPlace num den).toNat := Nat.pow_le_pow_right (by decide) (by omega)
    have hle : den * ((twoTo 54 - 1) * twoTo k) ≤ twoTo 52 * (den * twoTo (lastPlace num den).toNat) := by
      calc den * ((twoTo 54 - 1) * twoTo k) ≤ den * (twoTo 52 * twoTo (k + 2)) := Nat.mul_le_mul_left _ hmiddle
        _ = twoTo 52 * (den * twoTo (k + 2)) := Nat.mul_left_comm ..
        _ ≤ twoTo 52 * (den * twoTo (lastPlace num den).toNat) := Nat.mul_le_mul_left _ (Nat.mul_le_mul_left _ hpow)
    omega
  refine ⟨hplace, ?_⟩
  intro hround
  -- the significand overflows, which it does not do at the last place of the binade
  by_contra hlt
  have hnear := two_mul_roundQuotient_le .even (num * twoTo (-lastPlace num den).toNat)
    (den * twoTo (lastPlace num den).toNat)
  rw [hround, show lastPlace num den = ((k + 1 : Nat) : Int) by omega, Int.toNat_natCast,
    show (-((k + 1 : Nat) : Int)).toNat = 0 by omega, show twoTo 0 = 1 from rfl, Nat.mul_one] at hnear
  have hexpand :
      2 * (den * twoTo (k + 1)) * twoTo 53 = 2 * (den * ((twoTo 54 - 1) * twoTo k)) + den * twoTo (k + 1) := by
    have h53 : twoTo 53 = 9007199254740992 := rfl
    have h54 : twoTo 54 - 1 = 18014398509481983 := rfl
    rw [h53, h54, show twoTo (k + 1) = twoTo k * 2 from Nat.pow_succ 2 k]
    ring
  omega

/-- A quotient below the middle between the greatest number and the next power of two is rounded to a finite number. -/
theorem isFinite_ofRatio (negative : Bool) {num den k : Nat} (hden : den ≠ 0)
    (h : num < den * ((twoTo 54 - 1) * twoTo k)) (hk : k ≤ 970) : (ofRatio negative num den).isFinite = true := by
  unfold ofRatio
  split
  · exact isFinite_of_le (by rw [exponentField_zero]; exact Nat.zero_le _)
  next hnum =>
  dsimp only
  obtain ⟨hplace, hcarry⟩ := rounded_of_lt hnum h
  have hround := roundQuotient_le .even (lastPlace_spec num hden).1
  generalize roundQuotient .even (num * twoTo (-lastPlace num den).toNat) (den * twoTo (lastPlace num den).toNat) = m
    at hround hcarry ⊢
  split
  · next heq =>
    have hbelow := hcarry heq
    exact isFinite_of_le (exponentField_pack_le negative (by decide) (Nat.le_refl _) (by omega))
  · next hne =>
    exact isFinite_of_le (exponentField_pack_le negative (Nat.lt_of_le_of_ne hround hne) (Nat.le_refl _) (by omega))

/-! ## Integers -/

/-- The parts of a number that is packed with all its bits. -/
theorem parts_pack (negative : Bool) {m : Nat} {q : Int} (hlow : twoTo 52 ≤ m) (hm : m < twoTo 53) (hleast : -1075 < q)
    (hgreatest : q ≤ 971) : (pack negative m q).significand = m ∧ (pack negative m q).exponent = q := by
  have h52 : twoTo 52 = 4503599627370496 := rfl
  have h53 : twoTo 53 = 9007199254740992 := rfl
  obtain ⟨hexponent, hfraction⟩ :=
    fields_ofFields negative (show (q + 1075).toNat < 2048 by omega) (show m - twoTo 52 < twoTo 52 by omega)
  have hne : ¬(q + 1075).toNat = 0 := by omega
  unfold pack significand exponent
  rw [if_neg (Nat.not_lt.2 hlow), if_neg (Int.not_lt.2 hgreatest), hexponent, hfraction, if_neg hne, if_neg hne]
  omega

/-- The nearest number to a positive integer is greater by at most one part in `2 ^ 53`. -/
theorem numerator_ofRatio_one_le (negative : Bool) {n k : Nat} (hn : n ≠ 0) (h : n < (twoTo 54 - 1) * twoTo k)
    (hk : k ≤ 970) :
    (ofRatio negative n 1).numerator * twoTo 53 ≤ n * (twoTo 53 + 1) * (ofRatio negative n 1).denominator := by
  have h52 : twoTo 52 = 4503599627370496 := rfl
  have h53 : twoTo 53 = 9007199254740992 := rfl
  have hone : twoTo 0 = 1 := rfl
  obtain ⟨hplace, hfull⟩ := lastPlace_one hn
  obtain ⟨hgreatest, hcarry⟩ := rounded_of_lt hn (show n < 1 * ((twoTo 54 - 1) * twoTo k) by omega)
  have hbits := (lastPlace_spec n Nat.one_ne_zero).1
  have hupper := roundQuotient_le .even hbits
  have hlower := le_rounded_one hn
  have hnear := two_mul_roundQuotient_le .even (n * twoTo (-lastPlace n 1).toNat) (1 * twoTo (lastPlace n 1).toNat)
  unfold ofRatio
  rw [if_neg hn]
  dsimp only
  generalize roundQuotient .even (n * twoTo (-lastPlace n 1).toNat) (1 * twoTo (lastPlace n 1).toNat) = m at *
  generalize lastPlace n 1 = q at *
  split
  · next heq =>
    -- only integers of more than fifty-three bits are rounded to a power of two
    have hpos : 0 < q := by
      by_contra hle
      rw [show q.toNat = 0 by omega, hone] at hnear hbits
      omega
    have hbelow := hcarry heq
    obtain ⟨hsignificand, hexponent⟩ :=
      parts_pack negative (Nat.le_refl (twoTo 52)) (by decide) (show -1075 < q + 1 by omega) (show q + 1 ≤ 971 by omega)
    rw [show (-q).toNat = 0 by omega, hone] at hnear hfull
    rw [heq] at hnear
    rw [numerator, denominator, hsignificand, hexponent, show (q + 1).toNat = q.toNat + 1 by omega,
      show (-(q + 1)).toNat = 0 by omega, hone, show twoTo (q.toNat + 1) = twoTo q.toNat * 2 from Nat.pow_succ 2 _]
    calc twoTo 52 * (twoTo q.toNat * 2) * twoTo 53 = twoTo 52 * (2 * (1 * twoTo q.toNat) * twoTo 53) := by ring
      _ ≤ twoTo 52 * (2 * (n * 1) + 1 * twoTo q.toNat) := Nat.mul_le_mul_left _ hnear
      _ = n * twoTo 53 + twoTo 52 * twoTo q.toNat := by rw [h52, h53]; ring
      _ ≤ n * twoTo 53 + n * 1 := Nat.add_le_add_left hfull _
      _ = n * (twoTo 53 + 1) * 1 := by ring
  · next hne =>
    obtain ⟨hsignificand, hexponent⟩ :=
      parts_pack negative hlower (Nat.lt_of_le_of_ne hupper hne) (show -1075 < q by omega) (show q ≤ 971 by omega)
    rw [numerator, denominator, hsignificand, hexponent]
    rw [show 2 * (1 * twoTo q.toNat) * m = 2 * (m * twoTo q.toNat) by ring] at hnear
    rw [h52] at hfull
    rw [Nat.mul_right_comm n, h53]
    omega

/-! ## Decimals -/

/-- The product of an integer and a power of ten, each of them rounded, is finite when it is a little smaller
than the greatest number. -/
theorem isFinite_mulAbs {n power k : Nat} (hn : n ≠ 0) (h : n * tenTo power ≤ (twoTo 54 - 5) * twoTo k) (hk : k ≤ 970) :
    (mulAbs (ofRatio false n 1) (powerOfTen power)).isFinite = true := by
  have hten : 0 < tenTo power := Nat.pow_pos (by decide)
  have hmiddle : (twoTo 54 - 5) * twoTo k < (twoTo 54 - 1) * twoTo k :=
    Nat.mul_lt_mul_of_pos_right (by decide) (Nat.two_pow_pos k)
  have hfirst := numerator_ofRatio_one_le false hn
    (show n < (twoTo 54 - 1) * twoTo k from
      Nat.lt_of_le_of_lt (Nat.le_trans (Nat.le_mul_of_pos_right n hten) h) hmiddle) hk
  have hsecond := numerator_ofRatio_one_le false (Nat.ne_of_gt hten)
    (Nat.lt_of_le_of_lt (Nat.le_trans (Nat.le_mul_of_pos_left _ (Nat.pos_of_ne_zero hn)) h) hmiddle) hk
  change (powerOfTen power).numerator * twoTo 53 ≤
    tenTo power * (twoTo 53 + 1) * (powerOfTen power).denominator at hsecond
  unfold mulAbs
  have hdenominator : ∀ x : Binary64, 0 < x.denominator := fun x => Nat.two_pow_pos _
  have hpos := Nat.mul_pos (hdenominator (ofRatio false n 1)) (hdenominator (powerOfTen power))
  refine isFinite_ofRatio false (Nat.ne_of_gt hpos) ?_ hk
  generalize (ofRatio false n 1).numerator = a, (ofRatio false n 1).denominator = b, (powerOfTen power).numerator = c,
    (powerOfTen power).denominator = d at *
  refine Nat.lt_of_mul_lt_mul_right (a := twoTo 53 * twoTo 53) ?_
  calc a * c * (twoTo 53 * twoTo 53) = (a * twoTo 53) * (c * twoTo 53) := by ring
    _ ≤ (n * (twoTo 53 + 1) * b) * (tenTo power * (twoTo 53 + 1) * d) := Nat.mul_le_mul hfirst hsecond
    _ = (n * tenTo power) * ((twoTo 53 + 1) * (twoTo 53 + 1) * (b * d)) := by ring
    _ ≤ ((twoTo 54 - 5) * twoTo k) * ((twoTo 53 + 1) * (twoTo 53 + 1) * (b * d)) := Nat.mul_le_mul_right _ h
    _ = ((twoTo 54 - 5) * ((twoTo 53 + 1) * (twoTo 53 + 1))) * (twoTo k * (b * d)) := by ring
    _ < ((twoTo 54 - 1) * (twoTo 53 * twoTo 53)) * (twoTo k * (b * d)) :=
        Nat.mul_lt_mul_of_pos_right (by decide) (Nat.mul_pos (Nat.two_pow_pos k) hpos)
    _ = b * d * ((twoTo 54 - 1) * twoTo k) * (twoTo 53 * twoTo 53) := by ring

/-- Decimals with a negative exponent are read. -/
theorem exists_ofScientific?_of_neg (negative : Bool) (n : Nat) {e : Int} (he : e < 0) :
    ∃ x, ofScientific? negative n e = some x := by
  unfold ofScientific?
  dsimp only
  rw [if_neg (Int.not_le.2 he)]
  split
  · exact ⟨_, rfl⟩
  split
  · exact ⟨_, rfl⟩
  split
  · exact ⟨_, rfl⟩
  · exact ⟨_, rfl⟩

/-- The greatest number is smaller than the first power of ten that is refused. -/
theorem greatest_lt : ¬tenTo 309 ≤ (twoTo 54 - 5) * twoTo 970 := by
  decide +kernel

/-- The power of ten in what is a little smaller than the greatest number. -/
theorem power_lt {n power k : Nat} (hn : n ≠ 0) (h : n * tenTo power ≤ (twoTo 54 - 5) * twoTo k)
    (hk : k ≤ 970) : power < 309 := by
  have hten : ∀ j, j ≤ power → tenTo j ≤ tenTo power := fun j hj => Nat.pow_le_pow_right (by decide) hj
  have htwo : ∀ j, k ≤ j → twoTo k ≤ twoTo j := fun j hj => Nat.pow_le_pow_right (by decide) hj
  have hle := Nat.le_mul_of_pos_left (tenTo power) (Nat.pos_of_ne_zero hn)
  have hmul := Nat.mul_le_mul_left (twoTo 54 - 5) (htwo 970 hk)
  by_contra hlt
  exact greatest_lt (Nat.le_trans (hten 309 (by omega)) (Nat.le_trans hle (Nat.le_trans h hmul)))

/-- Decimals are read when they are a little smaller than the greatest number. -/
theorem exists_ofScientific? (negative : Bool) {n k : Nat} {e : Int} (h : n * tenTo e.toNat ≤ (twoTo 54 - 5) * twoTo k)
    (hk : k ≤ 970) : ∃ x, ofScientific? negative n e = some x := by
  rcases Int.lt_or_le e 0 with hneg | hpos
  · exact exists_ofScientific?_of_neg negative n hneg
  unfold ofScientific?
  dsimp only
  rw [if_pos hpos]
  split
  · exact ⟨_, rfl⟩
  next hzero =>
  have hn : n ≠ 0 := by
    rintro rfl
    exact hzero rfl
  have hpower : ¬308 < e := by
    have hlt := power_lt hn h hk
    omega
  rw [if_neg hpower, if_pos (isFinite_mulAbs hn h hk)]
  exact ⟨_, rfl⟩

end SnapshotLedger.Binary64
