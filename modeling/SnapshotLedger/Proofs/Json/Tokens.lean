import SnapshotLedger.Json.Printer
import SnapshotLedger.Json.Reader
import SnapshotLedger.Proofs.Text.Digits

/-!
# Strings and integers of documents

A string is read back from between its quotes, whatever characters it has (`readString_flatMap`), and an integer
that is a word is read back wherever nothing that could belong to a number follows it (`readNumeral_toDigits`).
-/

namespace SnapshotLedger.Json

/-! ## Strings -/

/-- Two hexadecimal digits behind two zeros are the code point of a control. -/
theorem hexWord?_control : ∀ n < 32, hexWord? '0' '0' (n / 16).digitChar (n % 16).digitChar = some n := by
  decide

/-- The escape of a control is read. -/
theorem escape_control {c : Char} (h : c.toNat < 0x20) (rest : List Char) :
    escape ('u' :: controlDigits c.toNat ++ rest) = .ok (c, rest) := by
  have hhex : hexEscape (controlDigits c.toNat ++ rest) = .ok (c.toNat, rest) := by
    simp only [controlDigits, List.cons_append, List.nil_append, hexEscape, hexWord?_control _ h]
  have hlow : (0xDC00 ≤ c.toNat && c.toNat ≤ 0xDFFF) = false := by simp; omega
  have hhigh : (0xD800 ≤ c.toNat && c.toNat ≤ 0xDBFF) = false := by simp; omega
  rw [List.cons_append, escape]
  simp only [hhex, bind, Except.bind, hlow, hhigh, Bool.false_eq_true, if_false, Char.ofNat_toNat]

/-- A string goes on behind an escape. -/
theorem stringChars_escape {c : Char} {s rest : List Char} (h : escape s = .ok (c, rest)) (fuel : Nat) :
    stringChars (fuel + 1) ('\\' :: s) = (stringChars fuel rest).map fun p => (c :: p.1, p.2) := by
  simp only [stringChars, h, bind, Except.bind, Except.map]

/-- A string goes on behind a character that needs no escape. -/
theorem stringChars_plain {c : Char} (hquote : c ≠ '\"') (hslash : c ≠ '\\') (hcontrol : ¬c.toNat < 0x20) (fuel : Nat)
    (rest : List Char) :
    stringChars (fuel + 1) (c :: rest) = (stringChars fuel rest).map fun p => (c :: p.1, p.2) := by
  rw [stringChars, if_neg hcontrol]
  · cases stringChars fuel rest <;> rfl
  · exact hquote
  · exact hslash

/-- A character is read as it is written. -/
theorem stringChars_escapedChar (c : Char) (fuel : Nat) (rest : List Char) :
    stringChars (fuel + 1) (escapedChar c ++ rest) = (stringChars fuel rest).map fun p => (c :: p.1, p.2) := by
  unfold escapedChar
  split
  · next h => subst h; exact stringChars_escape rfl fuel
  split
  · next h => subst h; exact stringChars_escape rfl fuel
  split
  · next h => subst h; exact stringChars_escape rfl fuel
  split
  · next h => subst h; exact stringChars_escape rfl fuel
  split
  · next h => subst h; exact stringChars_escape rfl fuel
  split
  · next h => subst h; exact stringChars_escape rfl fuel
  split
  · next h => subst h; exact stringChars_escape rfl fuel
  split
  · next h => exact stringChars_escape (escape_control h rest) fuel
  · next hquote hslash _ _ _ _ _ hcontrol => exact stringChars_plain hquote hslash hcontrol fuel rest

/-- The characters of a string are read back up to the closing quote. -/
theorem stringChars_flatMap (cs rest : List Char) {fuel : Nat} (h : cs.length < fuel) :
    stringChars fuel (cs.flatMap escapedChar ++ '\"' :: rest) = .ok (cs, rest) := by
  induction cs generalizing fuel with
  | nil =>
    obtain ⟨fuel, rfl⟩ := Nat.exists_eq_succ_of_ne_zero (Nat.pos_iff_ne_zero.1 h)
    rfl
  | cons c cs ih =>
    obtain ⟨fuel, rfl⟩ := Nat.exists_eq_succ_of_ne_zero (Nat.ne_of_gt (Nat.lt_of_le_of_lt (Nat.zero_le _) h))
    rw [List.flatMap_cons, List.append_assoc, stringChars_escapedChar, ih (Nat.lt_of_succ_lt_succ h)]
    rfl

/-- Writing makes a string no shorter. -/
theorem length_le_flatMap (cs : List Char) : cs.length ≤ (cs.flatMap escapedChar).length := by
  induction cs with
  | nil => exact Nat.le_refl 0
  | cons c cs ih =>
    have hpos : 1 ≤ (escapedChar c).length := by
      unfold escapedChar
      repeat' split
      all_goals simp
    rw [List.flatMap_cons, List.length_append, List.length_cons]
    omega

/-- A string is read back. -/
theorem readString_flatMap (s : String) (rest : List Char) {fuel : Nat}
    (h : (s.toList.flatMap escapedChar ++ '\"' :: rest).length ≤ fuel) :
    readString fuel (s.toList.flatMap escapedChar ++ '\"' :: rest) = .ok (s, rest) := by
  have hlen := length_le_flatMap s.toList
  rw [List.length_append, List.length_cons] at h
  have hread := stringChars_flatMap s.toList rest (show s.toList.length < fuel by omega)
  simp only [readString, hread, bind, Except.bind, String.ofList_toList]

/-! ## Integers -/

/-- Nothing that could belong to a number is in front. -/
def EndsNumber (rest : List Char) : Prop := ∀ c r, rest = c :: r → c.isDigit = false ∧ c ≠ '.' ∧ c ≠ 'e' ∧ c ≠ 'E'

/-- No digit is in front. -/
def EndsDigits (rest : List Char) : Prop := ∀ c r, rest = c :: r → c.isDigit = false

/-- What ends a number ends its digits. -/
theorem EndsNumber.endsDigits {rest : List Char} (h : EndsNumber rest) : EndsDigits rest := fun c r heq => (h c r heq).1

/-- A character that is no digit ends digits. -/
theorem endsDigits_cons {c : Char} (h : c.isDigit = false) (rest : List Char) : EndsDigits (c :: rest) := by
  intro d r heq
  obtain ⟨rfl, -⟩ := List.cons.inj heq
  exact h

/-- More digits make a number no smaller. -/
theorem le_ofDigitChars (ds : List Char) (n : Nat) : n ≤ Nat.ofDigitChars 10 ds n := by
  induction ds generalizing n with
  | nil => exact Nat.le_refl n
  | cons d ds ih =>
    rw [Nat.ofDigitChars_cons]
    exact Nat.le_trans (by omega) (ih _)

/-- The digits of an integer that is a word are all read. -/
theorem wholeDigits_append {ds : List Char} (hds : ∀ c ∈ ds, c.isDigit = true) {rest : List Char}
    (hrest : EndsDigits rest) {significand : Nat} (hfits : Nat.ofDigitChars 10 ds significand ≤ greatestUnsigned) :
    wholeDigits significand 0 (ds ++ rest) = ⟨Nat.ofDigitChars 10 ds significand, 0, rest⟩ := by
  induction ds generalizing significand with
  | nil =>
    cases rest with
    | nil => rfl
    | cons c r =>
      have hc := hrest c r rfl
      simp only [List.nil_append, wholeDigits, hc, Bool.not_false, if_true, Nat.ofDigitChars_nil]
      rfl
  | cons d ds ih =>
    have hd := hds d List.mem_cons_self
    rw [Nat.ofDigitChars_cons] at hfits ⊢
    have hfit : fitsDigit significand d = true :=
      decide_eq_true (Nat.le_trans (le_ofDigitChars ds _) hfits)
    simp only [List.cons_append, wholeDigits, hd, hfit, Bool.not_true, Bool.false_eq_true, if_false, decide_true,
      Bool.and_self, if_true]
    exact ih (fun c hc => hds c (List.mem_cons_of_mem _ hc)) hfits

/-- Digits without fraction and exponent are an integer. -/
theorem readTail_integer (negative : Bool) (n : Nat) {rest : List Char} (hrest : EndsNumber rest) :
    readTail negative ⟨n, 0, rest⟩ =
      if !negative then .ok (integer n, rest)
      else if 0 < n && -(n : Int) ≥ leastInteger then .ok (integer (-n), rest)
      else .ok (float (.ofRatio true n 1), rest) := by
  unfold readTail
  dsimp only
  split
  · next r => exact absurd rfl (hrest '.' r rfl).2.1
  · next r => exact absurd rfl (hrest 'e' r rfl).2.2.1
  · next r => exact absurd rfl (hrest 'E' r rfl).2.2.2
  · rfl

/-- The digits of an integer that is a word are read as a whole. -/
theorem readNumeral_toDigits (negative : Bool) {n : Nat} (hn : n ≤ greatestUnsigned) {rest : List Char}
    (hrest : EndsNumber rest) : readNumeral negative (Nat.toDigits 10 n ++ rest) = readTail negative ⟨n, 0, rest⟩ := by
  rcases Nat.eq_zero_or_pos n with rfl | pos
  · rw [Nat.toDigits_zero, List.cons_append, List.nil_append]
    unfold readNumeral
    cases rest with
    | nil => rfl
    | cons c r =>
      have hc := (hrest c r rfl).1
      simp only [hc, Bool.false_eq_true, if_false]
  · obtain ⟨c, r, hdigits, hne, hall, hvalue⟩ := Text.exists_toDigits n
    have hwhole : wholeDigits (Text.digitValue c) 0 (r ++ rest) = ⟨n, 0, rest⟩ := by
      rw [wholeDigits_append (fun d hd => hall d (List.mem_cons_of_mem _ hd)) hrest.endsDigits (hvalue ▸ hn), hvalue]
    rw [hdigits, List.cons_append, readNumeral, hall c List.mem_cons_self, hwhole]
    · rfl
    · exact hne pos

end SnapshotLedger.Json
