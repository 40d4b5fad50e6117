import Mathlib.Algebra.GroupWithZero.Nat
import Mathlib.Data.List.TakeWhile
import SnapshotLedger.Text.Ascii

/-!
# Numbers spelled with digits

A number of at most `width` digits is spelled by `padded width` with exactly so many, and they spell it
(`digitsValue_padded`). Among texts of one length the order of the texts is the order of the numbers
(`lt_iff_digitsValue_lt`), also where something follows (`padded_append_lt_iff`). What is read as a number are
its digits with zeros in front (`unsigned?_eq_some_iff`).
-/

namespace SnapshotLedger.Text

/-- A row of digits as the library reads it. -/
theorem digitsValue_eq (ds : List Char) : digitsValue ds = Nat.ofDigitChars 10 ds 0 := rfl

/-- The first digit counts as often as the others have numbers. -/
theorem digitsValue_cons (d : Char) (ds : List Char) :
    digitsValue (d :: ds) = 10 ^ ds.length * digitValue d + digitsValue ds := by
  rw [digitsValue_eq, Nat.ofDigitChars_cons, Nat.ofDigitChars_eq_ofDigitChars_zero, Nat.mul_zero, Nat.zero_add]
  rfl

/-- Decimal digits are digits. -/
theorem isDigit_of_mem_toDigits {n : Nat} {c : Char} (h : c ∈ Nat.toDigits 10 n) : c.isDigit = true :=
  Nat.isDigit_of_mem_toDigits (by decide) (by decide) h

/-- The first digit of a positive number is not zero. -/
theorem head_toDigits {n : Nat} (pos : 0 < n) : ∃ c r, Nat.toDigits 10 n = c :: r ∧ c ≠ '0' := by
  induction n using Nat.strongRecOn with
  | _ n ih =>
    rw [Nat.toDigits_eq_if (by decide)]
    split
    · refine ⟨_, _, rfl, ?_⟩
      rw [ne_eq, Nat.digitChar_eq_zero]
      omega
    · obtain ⟨c, r, hc, hne⟩ := ih (n / 10) (by omega) (by omega)
      rw [hc]
      exact ⟨c, _, List.cons_append, hne⟩

/-- The digits of a number, the first of them taken alone. -/
theorem exists_toDigits (n : Nat) : ∃ c r, Nat.toDigits 10 n = c :: r ∧ (0 < n → c ≠ '0') ∧
    (∀ d ∈ c :: r, d.isDigit = true) ∧ Nat.ofDigitChars 10 r (digitValue c) = n := by
  obtain ⟨c, r, hdigits⟩ := List.exists_cons_of_ne_nil (Nat.toDigits_ne_nil (b := 10) (n := n))
  refine ⟨c, r, hdigits, ?_, fun d hd => isDigit_of_mem_toDigits (hdigits ▸ hd), ?_⟩
  · intro pos
    obtain ⟨first, others, hsame, hne⟩ := head_toDigits pos
    rw [hdigits] at hsame
    rw [(List.cons.inj hsame).1]
    exact hne
  have hsame : Nat.ofDigitChars 10 (c :: r) 0 = n := by rw [← hdigits, Nat.ofDigitChars_ten_toDigits]
  rw [Nat.ofDigitChars_cons, Nat.mul_zero, Nat.zero_add] at hsame
  exact hsame

/-- The value of a digit is less than ten. -/
theorem digitValue_lt {c : Char} (h : c.isDigit = true) : digitValue c < 10 := by
  simp only [Char.isDigit, Bool.and_eq_true, decide_eq_true_eq, ge_iff_le, UInt32.le_iff_toNat_le] at h
  have h9 : c.toNat ≤ 57 := h.2
  change c.toNat - 48 < 10
  omega

/-- Digits are ordered by their values. -/
theorem digit_lt_iff {c d : Char} (hc : c.isDigit = true) (hd : d.isDigit = true) :
    c < d ↔ digitValue c < digitValue d := by
  simp only [Char.isDigit, Bool.and_eq_true, decide_eq_true_eq, ge_iff_le, UInt32.le_iff_toNat_le] at hc hd
  have h1 : 48 ≤ c.toNat := hc.1
  have h2 : 48 ≤ d.toNat := hd.1
  have h3 : c < d ↔ c.toNat < d.toNat := Iff.rfl
  rw [h3]
  change c.toNat < d.toNat ↔ c.toNat - 48 < d.toNat - 48
  omega

/-- Digits of one value are one character. -/
theorem digit_eq_of_value_eq {c d : Char} (hc : c.isDigit = true) (hd : d.isDigit = true)
    (h : digitValue c = digitValue d) : c = d := by
  have h1 : ¬c < d := by rw [digit_lt_iff hc hd]; omega
  have h2 : ¬d < c := by rw [digit_lt_iff hd hc]; omega
  exact Char.le_antisymm (Char.not_lt.1 h2) (Char.not_lt.1 h1)

/-- Digits spell less than the next power of ten. -/
theorem digitsValue_lt {ds : List Char} (h : ∀ c ∈ ds, c.isDigit = true) : digitsValue ds < 10 ^ ds.length := by
  induction ds with
  | nil => decide
  | cons d ds ih =>
    have hd := digitValue_lt (h d List.mem_cons_self)
    have hds := ih fun c hc => h c (List.mem_cons_of_mem _ hc)
    have hle : 10 ^ ds.length * digitValue d ≤ 10 ^ ds.length * 9 := Nat.mul_le_mul_left _ (by omega)
    rw [digitsValue_cons, List.length_cons, Nat.pow_succ]
    omega

/-- Rows of equally many digits are ordered by the numbers that they spell. -/
theorem lt_iff_digitsValue_lt {cs ds : List Char} (hlen : cs.length = ds.length) (hc : ∀ c ∈ cs, c.isDigit = true)
    (hd : ∀ c ∈ ds, c.isDigit = true) : cs < ds ↔ digitsValue cs < digitsValue ds := by
  induction cs generalizing ds with
  | nil =>
    cases ds with
    | nil => simp [digitsValue]
    | cons d ds => simp at hlen
  | cons c cs ih =>
    cases ds with
    | nil => simp at hlen
    | cons d ds =>
      have hlen' : cs.length = ds.length := Nat.succ.inj hlen
      have hc0 := hc c List.mem_cons_self
      have hd0 := hd d List.mem_cons_self
      have hcs := digitsValue_lt fun x hx => hc x (List.mem_cons_of_mem _ hx)
      have hds := digitsValue_lt fun x hx => hd x (List.mem_cons_of_mem _ hx)
      have tail := ih hlen' (fun x hx => hc x (List.mem_cons_of_mem _ hx)) fun x hx => hd x (List.mem_cons_of_mem _ hx)
      rw [List.cons_lt_cons_iff, tail, digit_lt_iff hc0 hd0, digitsValue_cons, digitsValue_cons, hlen']
      rw [hlen'] at hcs
      -- the leading digits decide unless they are the same
      rcases Nat.lt_trichotomy (digitValue c) (digitValue d) with h | h | h
      · have hstep : 10 ^ ds.length * (digitValue c + 1) ≤ 10 ^ ds.length * digitValue d := Nat.mul_le_mul_left _ h
        rw [Nat.mul_add, Nat.mul_one] at hstep
        exact ⟨fun _ => by omega, fun _ => .inl h⟩
      · have heq := digit_eq_of_value_eq hc0 hd0 h
        subst heq
        simp
      · have hstep : 10 ^ ds.length * (digitValue d + 1) ≤ 10 ^ ds.length * digitValue c := Nat.mul_le_mul_left _ h
        rw [Nat.mul_add, Nat.mul_one] at hstep
        have hne : c ≠ d := fun e => by subst e; omega
        constructor
        · rintro (hlt | ⟨he, _⟩)
          · omega
          · exact absurd he hne
        · intro hlt
          omega

/-- Behind texts of equal length the order goes on. -/
theorem append_lt_append_iff {a b r s : List Char} (hlen : a.length = b.length) :
    a ++ r < b ++ s ↔ a < b ∨ a = b ∧ r < s := by
  induction a generalizing b with
  | nil =>
    cases b with
    | nil => simp
    | cons d b => simp at hlen
  | cons c a ih =>
    cases b with
    | nil => simp at hlen
    | cons d b =>
      rw [List.cons_append, List.cons_append, List.cons_lt_cons_iff, List.cons_lt_cons_iff, ih (Nat.succ.inj hlen),
        List.cons.injEq]
      constructor
      · rintro (h | ⟨h, h' | ⟨h', h''⟩⟩)
        · exact .inl (.inl h)
        · exact .inl (.inr ⟨h, h'⟩)
        · exact .inr ⟨⟨h, h'⟩, h''⟩
      · rintro ((h | ⟨h, h'⟩) | ⟨⟨h, h'⟩, h''⟩)
        · exact .inl h
        · exact .inr ⟨h, .inl h'⟩
        · exact .inr ⟨h, .inr ⟨h', h''⟩⟩

/-- A text is what is left of it without the zeros that end it, and these zeros. -/
theorem exists_zeros (s : List Char) :
    ∃ zeros, s = (s.reverse.dropWhile (· = '0')).reverse ++ List.replicate zeros '0' := by
  have hzeros : ∀ c ∈ (s.reverse.takeWhile (· = '0')).reverse, c = '0' := by
    intro c hc
    have hzero := List.mem_takeWhile_imp (List.mem_reverse.1 hc)
    exact of_decide_eq_true hzero
  have hsplit := congrArg List.reverse (List.takeWhile_append_dropWhile (p := (· = '0')) (l := s.reverse))
  rw [List.reverse_append, List.reverse_reverse, List.eq_replicate_of_mem hzeros] at hsplit
  exact ⟨_, hsplit.symm⟩

/-! ## Numbers with zeros in front -/

/-- A number with few enough digits is spelled with exactly so many. -/
theorem length_padded {width n : Nat} (pos : 0 < width) (h : n < 10 ^ width) : (padded width n).length = width := by
  have hle := (Nat.length_toDigits_le_iff (b := 10) (n := n) (by decide) pos).2 h
  simp only [padded, List.length_append, List.length_replicate]
  omega

/-- A number with zeros in front consists of digits. -/
theorem isDigit_of_mem_padded {width n : Nat} {c : Char} (h : c ∈ padded width n) : c.isDigit = true := by
  rcases List.mem_append.1 h with h | h
  · rw [List.eq_of_mem_replicate h]
    decide
  · exact isDigit_of_mem_toDigits h

/-- Zeros in front of a number do not change it. -/
theorem digitsValue_zeros (zeros n : Nat) : digitsValue (List.replicate zeros '0' ++ Nat.toDigits 10 n) = n := by
  rw [digitsValue_eq, Nat.ofDigitChars_append, Nat.ofDigitChars_replicate_zero, Nat.mul_zero,
    Nat.ofDigitChars_ten_toDigits]

/-- A number with zeros in front is the number. -/
theorem digitsValue_padded (width n : Nat) : digitsValue (padded width n) = n := digitsValue_zeros _ n

/-- Numbers with the same digits are the same. -/
theorem padded_inj {width m n : Nat} : padded width m = padded width n ↔ m = n := by
  constructor
  · intro h
    rw [← digitsValue_padded width m, h, digitsValue_padded]
  · rintro rfl
    rfl

/-- Texts that begin with numbers of one width are ordered by these, and behind equal ones by what follows. -/
theorem padded_append_lt_iff {width m n : Nat} (pos : 0 < width) (hm : m < 10 ^ width) (hn : n < 10 ^ width)
    (r s : List Char) : padded width m ++ r < padded width n ++ s ↔ m < n ∨ m = n ∧ r < s := by
  have hlen : (padded width m).length = (padded width n).length := by
    rw [length_padded pos hm, length_padded pos hn]
  rw [append_lt_append_iff hlen,
    lt_iff_digitsValue_lt hlen (fun _ => isDigit_of_mem_padded) (fun _ => isDigit_of_mem_padded), digitsValue_padded,
    digitsValue_padded, padded_inj]

/-- A row of digits is its number with zeros in front. -/
theorem eq_padded {ds : List Char} (hne : ds ≠ []) (hds : ∀ c ∈ ds, c.isDigit = true) :
    ds = padded ds.length (digitsValue ds) := by
  have hlen : ds.length = (padded ds.length (digitsValue ds)).length :=
    (length_padded (List.length_pos_iff.2 hne) (digitsValue_lt hds)).symm
  have hpadded : ∀ c ∈ padded ds.length (digitsValue ds), c.isDigit = true := fun _ => isDigit_of_mem_padded
  have hless : ¬ds < padded ds.length (digitsValue ds) := by
    rw [lt_iff_digitsValue_lt hlen hds hpadded, digitsValue_padded]
    exact Nat.lt_irrefl _
  have hgreater : ¬padded ds.length (digitsValue ds) < ds := by
    rw [lt_iff_digitsValue_lt hlen.symm hpadded hds, digitsValue_padded]
    exact Nat.lt_irrefl _
  exact List.le_antisymm (List.not_lt.1 hgreater) (List.not_lt.1 hless)

/-- Without a sign, a number is read from its digits, with zeros in front or without, and from nothing else. -/
theorem unsigned?_eq_some_iff {s : List Char} {n : Nat} (hsign : '+' ∉ s) :
    unsigned? s = some n ↔ ∃ zeros, s = List.replicate zeros '0' ++ Nat.toDigits 10 n := by
  have hdigits : unsigned? s = if s.isEmpty || !s.all Char.isDigit then none else some (digitsValue s) := by
    unfold unsigned?
    split
    · exact absurd List.mem_cons_self hsign
    · rfl
  rw [hdigits]
  constructor
  · intro h
    obtain ⟨hif, hvalue⟩ := Option.ite_none_left_eq_some.1 h
    rw [Bool.or_eq_true, not_or, Bool.not_eq_true, Bool.not_eq_true, List.isEmpty_eq_false_iff, Bool.not_eq_false',
      List.all_eq_true] at hif
    rw [← Option.some.inj hvalue]
    exact ⟨_, eq_padded hif.1 hif.2⟩
  · rintro ⟨zeros, rfl⟩
    have hne : List.replicate zeros '0' ++ Nat.toDigits 10 n ≠ [] :=
      fun hnil => Nat.toDigits_ne_nil (List.append_eq_nil_iff.1 hnil).2
    have hall : ∀ c ∈ List.replicate zeros '0' ++ Nat.toDigits 10 n, c.isDigit = true := by
      intro c hc
      rcases List.mem_append.1 hc with hc | hc
      · rw [List.eq_of_mem_replicate hc]
        decide
      · exact isDigit_of_mem_toDigits hc
    rw [List.isEmpty_eq_false_iff.2 hne, List.all_eq_true.2 hall, digitsValue_zeros]
    rfl

/-- A row of digits ends in front of the first other character. -/
theorem digits_append_inj {ds es r s : List Char} {c d : Char} (hds : ∀ x ∈ ds, x.isDigit = true)
    (hes : ∀ x ∈ es, x.isDigit = true) (hc : c.isDigit = false) (hd : d.isDigit = false) :
    ds ++ c :: r = es ++ d :: s ↔ ds = es ∧ c :: r = d :: s := by
  have hfront : ∀ {fs t : List Char} {x : Char}, (∀ y ∈ fs, y.isDigit = true) → x.isDigit = false →
      (fs ++ x :: t).takeWhile Char.isDigit = fs := by
    intro fs t x hfs hx
    rw [List.takeWhile_append_of_pos hfs, List.takeWhile_cons_of_neg (by simp [hx]), List.append_nil]
  constructor
  · intro h
    have hsame : ds = es := by rw [← hfront hds hc (t := r), h, hfront hes hd]
    subst hsame
    exact ⟨rfl, List.append_cancel_left h⟩
  · rintro ⟨rfl, h⟩
    rw [h]

/-- A number is told by its digits in front of another character, whatever their number. -/
theorem padded_append_inj {width m n : Nat} {r s : List Char} {c d : Char} (hc : c.isDigit = false)
    (hd : d.isDigit = false) :
    padded width m ++ c :: r = padded width n ++ d :: s ↔ m = n ∧ c :: r = d :: s := by
  rw [digits_append_inj (fun _ => isDigit_of_mem_padded) (fun _ => isDigit_of_mem_padded) hc hd, padded_inj]

/-- A number begins with a digit. -/
theorem exists_padded (width n : Nat) : ∃ c r, padded width n = c :: r ∧ c.isDigit = true := by
  have hne : padded width n ≠ [] := fun hnil => Nat.toDigits_ne_nil (List.append_eq_nil_iff.1 hnil).2
  obtain ⟨c, r, hpadded⟩ := List.exists_cons_of_ne_nil hne
  exact ⟨c, r, hpadded, isDigit_of_mem_padded (hpadded ▸ List.mem_cons_self)⟩

end SnapshotLedger.Text
