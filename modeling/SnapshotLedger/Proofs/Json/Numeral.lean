import SnapshotLedger.Json.Printer
import SnapshotLedger.Proofs.Decimal.Range
import SnapshotLedger.Proofs.Decimal.Shortest
import SnapshotLedger.Proofs.Json.Tokens

/-!
# Binary numbers are read

Whatever finite number is written, a number is read from its text (`readsFloat_unsigned`); it may miss the one
that was written by its last bits. A fraction makes the exponent negative, so that the numeral cannot be too
large, and a numeral with a positive exponent is no greater than the decimal that is written.
-/

namespace SnapshotLedger.Json

/-! ## Rows of digits -/

variable {ds rest : List Char}

/-- Digits are passed over once one did not fit. -/
theorem fractionDigits_full (hds : ∀ c ∈ ds, c.isDigit = true) (hrest : EndsDigits rest) (significand : Nat)
    (exponent : Int) :
    fractionDigits significand exponent true (ds ++ rest) = ⟨significand, exponent, rest⟩ := by
  induction ds with
  | nil =>
    cases rest with
    | nil => rfl
    | cons c r => simp [fractionDigits, hrest c r rfl]
  | cons d ds ih =>
    have hd := hds d List.mem_cons_self
    simp only [List.cons_append, fractionDigits, hd]
    exact ih fun c hc => hds c (List.mem_cons_of_mem _ hc)

/-- Of the digits behind the point the first ones are taken, as many as fit, and the others are passed over. -/
theorem exists_fractionDigits (hds : ∀ c ∈ ds, c.isDigit = true) (hrest : EndsDigits rest) (significand : Nat)
    (exponent : Int) :
    ∃ n k, k ≤ ds.length ∧ fractionDigits significand exponent false (ds ++ rest) = ⟨n, exponent - k, rest⟩ ∧
      n * 10 ^ (ds.length - k) ≤ Nat.ofDigitChars 10 ds significand ∧ significand ≤ n ∧
      (∀ d r, ds = d :: r → fitsDigit significand d = true → 0 < k) := by
  induction ds generalizing significand exponent with
  | nil =>
    refine ⟨significand, 0, Nat.le_refl 0, ?_, by simp, Nat.le_refl _, nofun⟩
    cases rest with
    | nil => simp [fractionDigits]
    | cons c r => simp [fractionDigits, hrest c r rfl]
  | cons d ds ih =>
    have hd := hds d List.mem_cons_self
    have hothers : ∀ c ∈ ds, c.isDigit = true := fun c hc => hds c (List.mem_cons_of_mem _ hc)
    by_cases hfits : fitsDigit significand d = true
    · obtain ⟨n, k, hk, heq, hle, hge, -⟩ := ih hothers (10 * significand + Text.digitValue d) (exponent - 1)
      refine ⟨n, k + 1, Nat.succ_le_succ hk, ?_, ?_, by omega, fun _ _ _ _ => Nat.succ_pos k⟩
      · simp only [List.cons_append, fractionDigits, hd, hfits, Bool.not_true, Bool.not_false, Bool.and_self,
          Bool.false_eq_true, if_false, if_true, heq]
        congr 1
        omega
      · rw [List.length_cons, Nat.add_sub_add_right, Nat.ofDigitChars_cons]
        exact hle
    · refine ⟨significand, 0, Nat.zero_le _, ?_, ?_, Nat.le_refl _, ?_⟩
      · simp only [List.cons_append, fractionDigits, hd, hfits, Bool.not_true, Bool.not_false, Bool.and_false,
          Bool.false_eq_true, if_false]
        rw [fractionDigits_full hothers hrest, Int.natCast_zero, Int.sub_zero]
      · rw [Nat.ofDigitChars_eq_ofDigitChars_zero, Nat.sub_zero, Nat.mul_comm]
        exact Nat.le_add_right _ _
      · intro c r heq hfirst
        obtain ⟨rfl, -⟩ := List.cons.inj heq
        exact absurd hfirst hfits

/-- The digits of an exponent that is counted are all read. -/
theorem powerDigits_append (hds : ∀ c ∈ ds, c.isDigit = true) (hrest : EndsDigits rest) {power : Nat}
    (h : Nat.ofDigitChars 10 ds power ≤ greatestPower) :
    powerDigits power (ds ++ rest) = .ok (Nat.ofDigitChars 10 ds power, rest) := by
  induction ds generalizing power with
  | nil =>
    cases rest with
    | nil => rfl
    | cons c r => simp [powerDigits, hrest c r rfl]
  | cons d ds ih =>
    have hd := hds d List.mem_cons_self
    rw [Nat.ofDigitChars_cons] at h ⊢
    have hcounted : 10 * power + Text.digitValue d ≤ greatestPower := Nat.le_trans (le_ofDigitChars ds _) h
    simp only [List.cons_append, powerDigits, hd, hcounted, Bool.not_true, Bool.false_eq_true, if_false, if_true]
    exact ih (fun c hc => hds c (List.mem_cons_of_mem _ hc)) h

/-! ## Exponents and fractions -/

/-- A binary number is read. -/
def ReadsFloat (answer : Except Fault (Json × List Char)) (rest : List Char) : Prop := ∃ x, answer = .ok (float x, rest)

/-- A decimal that is read. -/
theorem readsFloat_scaled {negative : Bool} {n : Nat} {e : Int} (h : ∃ x, Binary64.ofScientific? negative n e = some x)
    (rest : List Char) : ReadsFloat (scaled negative n e rest) rest := by
  obtain ⟨x, hx⟩ := h
  exact ⟨x, by rw [scaled, hx]⟩

/-- An exponent is read with its sign. -/
theorem readPower_toDigits (negative : Bool) (n : Nat) (exponent : Int) {e : Int} (he : e.natAbs ≤ greatestPower)
    (hrest : EndsDigits rest) :
    readPower negative n exponent ((if e < 0 then '-' else '+') :: (Nat.toDigits 10 e.natAbs ++ rest)) =
      scaled negative n (exponent + e) rest := by
  obtain ⟨c, r, hdigits, -, hall, hvalue⟩ := Text.exists_toDigits e.natAbs
  have hcounted : Nat.ofDigitChars 10 r (Text.digitValue c) ≤ greatestPower := by omega
  have hpower := powerDigits_append (fun d hd => hall d (List.mem_cons_of_mem _ hd)) hrest hcounted
  have hc := hall c List.mem_cons_self
  rw [hvalue] at hpower
  rw [hdigits]
  by_cases hneg : e < 0
  · have hsum : exponent - (e.natAbs : Int) = exponent + e := by omega
    simp only [if_pos hneg, readPower, List.cons_append, hc, hpower, Bool.not_true, Bool.false_eq_true,
      if_false, if_true, hsum]
  · have hsum : exponent + (e.natAbs : Int) = exponent + e := by omega
    simp only [if_neg hneg, readPower, List.cons_append, hc, hpower, Bool.not_true, Bool.false_eq_true, if_false, hsum]

/-- A fraction makes the exponent negative, so that the numeral is read. -/
theorem readsFloat_readFraction (negative : Bool) {n : Nat} {d : Char} (hds : ∀ c ∈ d :: ds, c.isDigit = true)
    (hfits : fitsDigit n d = true) (hrest : EndsNumber rest) :
    ReadsFloat (readFraction negative n 0 (d :: ds ++ rest)) rest := by
  obtain ⟨m, k, -, heq, -, -, hpos⟩ := exists_fractionDigits hds hrest.endsDigits n 0
  have hk := hpos d ds rfl hfits
  have hread :=
    readsFloat_scaled (Binary64.exists_ofScientific?_of_neg negative m (show (0 : Int) - k < 0 by omega)) rest
  rw [List.cons_append] at heq ⊢
  simp only [readFraction, hds d List.mem_cons_self, Bool.not_true, Bool.false_eq_true, if_false, heq]
  split
  · next r => exact absurd rfl (hrest 'e' r rfl).2.2.1
  · next r => exact absurd rfl (hrest 'E' r rfl).2.2.2
  · exact hread

/-- An exponent behind a fraction is read with the digits of the fraction that fit. -/
theorem readFraction_of_fractionDigits (negative : Bool) {n m : Nat} {exponent e : Int} {c : Char}
    (hc : c.isDigit = true) {s tail : List Char} (h : fractionDigits n exponent false (c :: s) = ⟨m, e, 'e' :: tail⟩) :
    readFraction negative n exponent (c :: s) = readPower negative m e tail := by
  simp only [readFraction, hc, Bool.not_true, Bool.false_eq_true, if_false, h]

/-! ## Layouts -/

/-- The digits before the point, of which the first is no zero unless it is the only one. -/
theorem readNumeral_point (negative : Bool) {c : Char} (hds : ∀ d ∈ c :: ds, d.isDigit = true)
    (hzero : c = '0' → ds = []) (hfits : Nat.ofDigitChars 10 ds (Text.digitValue c) ≤ greatestUnsigned) :
    readNumeral negative (c :: ds ++ '.' :: rest) =
      readFraction negative (Nat.ofDigitChars 10 ds (Text.digitValue c)) 0 rest := by
  have hothers : ∀ d ∈ ds, d.isDigit = true := fun d hd => hds d (List.mem_cons_of_mem _ hd)
  by_cases hc : c = '0'
  · rw [hc, hzero hc]
    rfl
  · have hwhole := wholeDigits_append hothers (endsDigits_cons (c := '.') rfl rest) hfits
    rw [List.cons_append, readNumeral, hds c List.mem_cons_self, hwhole]
    · rfl
    · exact hc

/-- A digit fits behind sixteen others. -/
theorem fitsDigit_of_length {c d : Char} (hds : ∀ x ∈ c :: ds, x.isDigit = true) (hlength : ds.length ≤ 15)
    (hd : d.isDigit = true) : Nat.ofDigitChars 10 ds (Text.digitValue c) < 10 ^ 16 ∧
      fitsDigit (Nat.ofDigitChars 10 ds (Text.digitValue c)) d = true := by
  have hvalue : Nat.ofDigitChars 10 ds (Text.digitValue c) = Text.digitsValue (c :: ds) := by
    rw [Text.digitsValue_eq, Nat.ofDigitChars_cons, Nat.mul_zero, Nat.zero_add]
    rfl
  have hlt := Text.digitsValue_lt hds
  have hpow : 10 ^ (c :: ds).length ≤ 10 ^ 16 := Nat.pow_le_pow_right (by decide) (Nat.succ_le_succ hlength)
  have hdigit := Text.digitValue_lt hd
  rw [hvalue]
  refine ⟨Nat.lt_of_lt_of_le hlt hpow, decide_eq_true ?_⟩
  have h16 : (10 : Nat) ^ 16 = 10000000000000000 := by decide
  unfold greatestUnsigned
  omega

/-- Digits without an exponent have at least one digit before the point and at least one behind it. -/
theorem exists_fixedDigits {c : Char} (hds : ∀ d ∈ c :: ds, d.isDigit = true) {e : Int} (he : 0 ≤ e) :
    ∃ front f fraction, NumberLayout.exchange.fixedDigits (c :: ds) e = c :: front ++ '.' :: f :: fraction ∧
      (∀ d ∈ front, d.isDigit = true) ∧ (∀ d ∈ f :: fraction, d.isDigit = true) ∧ front.length = e.toNat := by
  have hothers : ∀ d ∈ ds, d.isDigit = true := fun d hd => hds d (List.mem_cons_of_mem _ hd)
  have hfront : ∀ d ∈ ds.take e.toNat ++ List.replicate (e.toNat - ds.length) '0', d.isDigit = true := by
    intro d hd
    rcases List.mem_append.1 hd with hd | hd
    · exact hothers d (List.mem_of_mem_take hd)
    · rw [List.eq_of_mem_replicate hd]
      rfl
  have hlength : (ds.take e.toNat ++ List.replicate (e.toNat - ds.length) '0').length = e.toNat := by
    rw [List.length_append, List.length_take, List.length_replicate]
    omega
  unfold NumberLayout.fixedDigits
  rw [if_neg (Int.not_lt.2 he)]
  simp only [List.take_succ_cons, List.drop_succ_cons, List.length_cons, Nat.add_sub_add_right, List.cons_append]
  cases hfraction : ds.drop e.toNat with
  | nil => exact ⟨_, '0', [], rfl, hfront, by simp, hlength⟩
  | cons f fraction =>
    refine ⟨_, f, fraction, rfl, hfront, ?_, hlength⟩
    intro d hd
    exact hothers d (List.mem_of_mem_drop (hfraction ▸ hd))

/-- Digits without an exponent are read when no more than sixteen of them stand before the point. -/
theorem readsFloat_fixedDigits (negative : Bool) {c : Char} (hds : ∀ d ∈ c :: ds, d.isDigit = true) {e : Int}
    (he : e ≤ 15) (hzero : c = '0' → e ≤ 0) (hrest : EndsNumber rest) :
    ReadsFloat (readNumeral negative (NumberLayout.exchange.fixedDigits (c :: ds) e ++ rest)) rest := by
  by_cases hneg : e < 0
  · obtain ⟨f, fraction, hfraction⟩ : ∃ f fraction, List.replicate ((-e).toNat - 1) '0' ++ c :: ds = f :: fraction :=
      List.exists_cons_of_ne_nil (by simp)
    have hdigits : ∀ d ∈ f :: fraction, d.isDigit = true := by
      intro d hd
      rw [← hfraction] at hd
      rcases List.mem_append.1 hd with hd | hd
      · rw [List.eq_of_mem_replicate hd]
        rfl
      · exact hds d hd
    have hnone : ∀ d ∈ ['0'], d.isDigit = true := by simp
    have hfits : fitsDigit 0 f = true := (fitsDigit_of_length hnone (Nat.zero_le 15) (hdigits f List.mem_cons_self)).2
    have hread := readsFloat_readFraction negative hdigits hfits hrest
    have hlayout : NumberLayout.exchange.fixedDigits (c :: ds) e ++ rest =
        '0' :: [] ++ '.' :: (f :: fraction ++ rest) := by
      rw [NumberLayout.fixedDigits, if_pos hneg, List.append_assoc _ _ (c :: ds), hfraction]
      rfl
    rw [hlayout, readNumeral_point negative (by simp) (fun _ => rfl) (by decide)]
    exact hread
  · obtain ⟨front, f, fraction, hlayout, hfront, hfraction, hlength⟩ := exists_fixedDigits hds (Int.not_lt.1 hneg)
    have hwhole : ∀ d ∈ c :: front, d.isDigit = true := List.forall_mem_cons.2 ⟨hds c List.mem_cons_self, hfront⟩
    obtain ⟨hlt, hfits⟩ := fitsDigit_of_length hwhole (show front.length ≤ 15 by omega) (hfraction f List.mem_cons_self)
    have hread := readsFloat_readFraction negative hfraction hfits hrest
    have hone : c = '0' → front = [] := by
      intro hc
      have hle := hzero hc
      exact List.eq_nil_of_length_eq_zero (by omega)
    rw [hlayout, List.append_assoc]
    change ReadsFloat (readNumeral negative (c :: front ++ '.' :: (f :: fraction ++ rest))) rest
    rw [readNumeral_point negative hwhole hone (Nat.le_trans (Nat.le_of_lt hlt) (by decide))]
    exact hread

/-- Digits with an exponent are read when the numerals that their first digits make with it are. -/
theorem readsFloat_scientificDigits (negative : Bool) {c : Char} (hds : ∀ d ∈ c :: ds, d.isDigit = true)
    (hne : c ≠ '0') {e : Int} (he : e.natAbs ≤ greatestPower) (hrest : EndsNumber rest)
    (hread : ∀ n k : Nat, k ≤ ds.length → n * 10 ^ (ds.length - k) ≤ Nat.ofDigitChars 10 ds (Text.digitValue c) →
      ∃ x, Binary64.ofScientific? negative n (e - k) = some x) :
    ReadsFloat (readNumeral negative (NumberLayout.scientificDigits (c :: ds) e ++ rest)) rest := by
  have hc := hds c List.mem_cons_self
  have hothers : ∀ d ∈ ds, d.isDigit = true := fun d hd => hds d (List.mem_cons_of_mem _ hd)
  have hpower : ∀ n k : Nat, k ≤ ds.length → n * 10 ^ (ds.length - k) ≤ Nat.ofDigitChars 10 ds (Text.digitValue c) →
      ReadsFloat (readPower negative n (0 - k)
        ((if e < 0 then '-' else '+') :: (Nat.toDigits 10 e.natAbs ++ rest))) rest := by
    intro n k hk hle
    rw [readPower_toDigits negative n (0 - k) he hrest.endsDigits, show (0 : Int) - k + e = e - k by omega]
    exact readsFloat_scaled (hread n k hk hle) rest
  generalize htail : (if e < 0 then '-' else '+') :: (Nat.toDigits 10 e.natAbs ++ rest) = tail at hpower
  cases ds with
  | nil =>
    have hlayout : NumberLayout.scientificDigits [c] e ++ rest = c :: 'e' :: tail := by
      rw [← htail]
      rfl
    have hwhole : wholeDigits (Text.digitValue c) 0 ('e' :: tail) = ⟨Text.digitValue c, 0, 'e' :: tail⟩ := rfl
    have htaken := hpower (Text.digitValue c) 0 (Nat.le_refl 0) (by simp)
    rw [hlayout, readNumeral, hc, hwhole]
    · exact htaken
    · exact hne
  | cons f fraction =>
    have hlayout : NumberLayout.scientificDigits (c :: f :: fraction) e ++ rest =
        [c] ++ '.' :: (f :: fraction ++ 'e' :: tail) := by
      rw [← htail]
      simp [NumberLayout.scientificDigits]
    obtain ⟨n, k, hk, heq, hle, -, -⟩ :=
      exists_fractionDigits hothers (endsDigits_cons (c := 'e') rfl tail) (Text.digitValue c) 0
    have htaken := hpower n k hk hle
    have hfirst : ∀ d ∈ [c], d.isDigit = true := by simpa using hc
    rw [hlayout, readNumeral_point negative hfirst (fun _ => rfl)
      (Nat.le_trans (Nat.le_of_lt (Text.digitValue_lt hc)) (by decide)), Nat.ofDigitChars_nil]
    rw [List.cons_append] at heq ⊢
    rw [readFraction_of_fractionDigits negative (hothers f List.mem_cons_self) heq]
    exact htaken

/-! ## Binary numbers -/

/-- A number is read from the digits of the two greatest ones, though the general bound does not reach them. -/
theorem readsFloat_greatest (negative : Bool) {x : Binary64} (hexponent : x.exponent = 971)
    (hsignificand : twoTo 53 - 2 ≤ x.significand) (hrest : EndsNumber rest) :
    ReadsFloat (readNumeral negative (NumberLayout.exchange.unsigned x ++ rest)) rest := by
  have hpower : ∀ n, (∃ x, Binary64.ofScientific? negative n 292 = some x) →
      ReadsFloat (readPower negative n (-16) ('+' :: (Nat.toDigits 10 308 ++ rest))) rest := by
    intro n hn
    have hread :=
      readPower_toDigits negative n (-16) (show (308 : Int).natAbs ≤ greatestPower by decide) hrest.endsDigits
    have hscaled := readsFloat_scaled hn rest
    exact hread ▸ hscaled
  have hfirst : ∀ d ∈ ['1'], d.isDigit = true := by simp
  have hexact :
      ∀ n m : Nat, (∀ tail, fractionDigits 1 0 false (Nat.toDigits 10 n ++ 'e' :: tail) = ⟨m, -16, 'e' :: tail⟩) →
      ∀ tail, readNumeral negative ('1' :: '.' :: (Nat.toDigits 10 n ++ 'e' :: tail)) =
        readPower negative m (-16) tail := by
    intro n m hdigits tail
    obtain ⟨c, r, hc, -, hall, -⟩ := Text.exists_toDigits n
    have hfraction := hdigits tail
    rw [hc, List.cons_append] at hfraction ⊢
    have hpoint : readNumeral negative ('1' :: '.' :: c :: (r ++ 'e' :: tail)) =
        readFraction negative 1 0 (c :: (r ++ 'e' :: tail)) :=
      readNumeral_point negative hfirst (fun _ => rfl) (by decide)
    rw [hpoint, readFraction_of_fractionDigits negative (hall c List.mem_cons_self) hfraction]
  have hfinite : ∀ n, (Binary64.ofScientific? negative n 292).isSome = true →
      ∃ x, Binary64.ofScientific? negative n 292 = some x :=
    fun n => Option.isSome_iff_exists.1
  rcases NumberLayout.unsigned_greatest hexponent hsignificand with heq | heq
  · rw [heq]
    simp only [List.cons_append, List.append_assoc]
    rw [hexact 7976931348623155 17976931348623155 (fun _ => rfl)]
    exact hpower _ (hfinite _ (by cases negative <;> decide +kernel))
  · rw [heq]
    simp only [List.cons_append, List.append_assoc]
    rw [hexact 7976931348623157 17976931348623157 (fun _ => rfl)]
    exact hpower _ (hfinite _ (by cases negative <;> decide +kernel))

/-- A numeral of the first digits of a decimal is no greater than the decimal. -/
theorem numeral_le {d : Decimal} {c : Char} {zeros : Nat}
    (hdigits : Nat.toDigits 10 d.significand = c :: ds ++ List.replicate zeros '0') {n k : Nat} (hk : k ≤ ds.length)
    (hn : n * 10 ^ (ds.length - k) ≤ Nat.ofDigitChars 10 ds (Text.digitValue c)) (hpos : 0 ≤ d.firstPower - k) :
    n * tenTo (d.firstPower - k).toNat * tenTo (-d.exponent).toNat ≤ d.significand * tenTo d.exponent.toNat := by
  have hpower := Decimal.firstPower_eq hdigits
  have hvalue : d.significand = Nat.ofDigitChars 10 ds (Text.digitValue c) * 10 ^ zeros := by
    have hall := congrArg (fun cs => Nat.ofDigitChars 10 cs 0) hdigits
    simp only [Nat.ofDigitChars_ten_toDigits, List.cons_append, Nat.ofDigitChars_cons, Nat.ofDigitChars_append,
      Nat.ofDigitChars_replicate_zero] at hall
    rw [hall, Nat.mul_comm]
    simp [Text.digitValue]
  have hsum : (d.firstPower - k).toNat + (-d.exponent).toNat = (ds.length - k) + (zeros + d.exponent.toNat) := by omega
  calc n * tenTo (d.firstPower - k).toNat * tenTo (-d.exponent).toNat
      = n * 10 ^ ((d.firstPower - k).toNat + (-d.exponent).toNat) := by rw [Nat.mul_assoc, Nat.pow_add]; rfl
    _ = n * 10 ^ (ds.length - k) * (10 ^ zeros * 10 ^ d.exponent.toNat) := by
        rw [hsum, Nat.pow_add, Nat.pow_add, Nat.mul_assoc]
    _ ≤ Nat.ofDigitChars 10 ds (Text.digitValue c) * (10 ^ zeros * 10 ^ d.exponent.toNat) := Nat.mul_le_mul_right _ hn
    _ = d.significand * tenTo d.exponent.toNat := by rw [hvalue, Nat.mul_assoc]; rfl

/-- A number is read from the digits of a decimal near a finite one. -/
theorem readsFloat_of_near (negative : Bool) {x : Binary64} (hx : x.isFinite = true)
    (hgreatest : ¬(x.exponent = 971 ∧ twoTo 53 - 2 ≤ x.significand)) {d : Decimal} (h : d.Near x)
    (hrest : EndsNumber rest) :
    ReadsFloat (readNumeral negative ((if NumberLayout.exchange.positional d.firstPower then
      NumberLayout.exchange.fixedDigits d.digits d.firstPower
        else NumberLayout.scientificDigits d.digits d.firstPower) ++ rest))
      rest := by
  obtain ⟨c, r, zeros, hdigits, hne, hall⟩ := Decimal.digits_spec h.pos
  have hchars : ∀ y ∈ c :: r, y.isDigit = true := by
    intro y hy
    exact Text.isDigit_of_mem_toDigits (hall ▸ List.mem_append_left _ hy)
  have hpower := Decimal.firstPower_eq hall
  have hbound : ∀ n k : Nat, k ≤ r.length → n * 10 ^ (r.length - k) ≤ Nat.ofDigitChars 10 r (Text.digitValue c) →
      0 ≤ d.firstPower - k → ∃ j ≤ 970, n * tenTo (d.firstPower - k).toNat ≤ (twoTo 54 - 5) * twoTo j :=
    fun n k hk hn hpos => Decimal.le_of_near h hx hgreatest (numeral_le hall hk hn hpos)
  rw [hdigits]
  split
  · next hpositional =>
    have hle : d.firstPower ≤ 15 := by
      simp only [NumberLayout.exchange, Bool.and_eq_true, decide_eq_true_eq] at hpositional
      exact hpositional.2
    exact readsFloat_fixedDigits negative hchars hle (fun hzero => absurd hzero hne) hrest
  · have hle : d.firstPower.natAbs ≤ greatestPower := by
      have hleast := h.least
      have hfirst : Text.digitValue c ≠ 0 := by
        intro hzero
        exact hne (Text.digit_eq_of_value_eq (hchars c List.mem_cons_self) rfl hzero)
      rcases Int.lt_or_le d.firstPower 0 with hneg | hpos
      · unfold greatestPower
        omega
      · obtain ⟨j, hj, hlow⟩ := hbound (Text.digitValue c) 0 (Nat.zero_le _) (by
          rw [Nat.ofDigitChars_eq_ofDigitChars_zero, Nat.mul_comm, Nat.sub_zero]
          exact Nat.le_add_right _ _) (by omega)
        have hlt := Binary64.power_lt hfirst hlow hj
        unfold greatestPower
        omega
    refine readsFloat_scientificDigits negative hchars hne hle hrest ?_
    intro n k hk hn
    rcases Int.lt_or_le (d.firstPower - k) 0 with hneg | hpos
    · exact Binary64.exists_ofScientific?_of_neg negative n hneg
    · obtain ⟨j, hj, hlow⟩ := hbound n k hk hn hpos
      exact Binary64.exists_ofScientific? negative hlow hj

/-- A number is read from the digits of a finite one. -/
theorem readsFloat_unsigned (negative : Bool) {x : Binary64} (hx : x.isFinite = true) (hrest : EndsNumber rest) :
    ReadsFloat (readNumeral negative (NumberLayout.exchange.unsigned x ++ rest)) rest := by
  by_cases hgreatest : x.exponent = 971 ∧ twoTo 53 - 2 ≤ x.significand
  · exact readsFloat_greatest negative hgreatest.1 hgreatest.2 hrest
  rcases NumberLayout.unsigned_spec x with heq | ⟨d, hnear, heq⟩
  · rw [heq]
    exact readsFloat_fixedDigits negative (by simp) (by decide) (fun _ => Int.le_refl 0) hrest
  · rw [heq]
    exact readsFloat_of_near negative hx hgreatest hnear hrest

/-- The digits of a number open with a digit. -/
theorem head_unsigned (x : Binary64) : ∃ c r, NumberLayout.exchange.unsigned x = c :: r ∧ c.isDigit = true := by
  rcases NumberLayout.unsigned_spec x with heq | ⟨d, hnear, heq⟩
  · exact ⟨'0', _, heq, rfl⟩
  obtain ⟨c, ds, zeros, hdigits, -, hall⟩ := Decimal.digits_spec hnear.pos
  have hc : ∀ y ∈ c :: ds, y.isDigit = true := fun y hy =>
    Text.isDigit_of_mem_toDigits (hall ▸ List.mem_append_left _ hy)
  rw [heq, hdigits]
  split
  · by_cases hneg : d.firstPower < 0
    · rw [NumberLayout.fixedDigits, if_pos hneg]
      exact ⟨'0', _, rfl, rfl⟩
    · obtain ⟨front, f, fraction, hlayout, -⟩ := exists_fixedDigits hc (Int.not_lt.1 hneg)
      exact ⟨c, _, hlayout, hc c List.mem_cons_self⟩
  · exact ⟨c, _, rfl, hc c List.mem_cons_self⟩

end SnapshotLedger.Json
