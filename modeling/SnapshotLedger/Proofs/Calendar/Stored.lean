import SnapshotLedger.Calendar.Stored
import SnapshotLedger.Proofs.Calendar.Days
import SnapshotLedger.Proofs.Text.Digits
import SnapshotLedger.Proofs.Text.Octets

/-!
# Stored instants

A stored text is read back as the instant cut to the microsecond, in whatever year (`ofStored?_of_stored?`). The
texts of instants whose year in universal time has four digits and no sign (`InEra`) are ordered as the instants
are (`stored_lt_iff`), also octet by octet (`stored_sorts`). The texts of years before the year 0, which have a
sign, stand before all of them (`stored_lt_of_not_inEra`).
-/

namespace SnapshotLedger

/-- A number of fixed width is read off the front of a text. -/
theorem DateFault.readDigits_padded (part : DatePart) {width n : Nat} (pos : 0 < width) (h : n < 10 ^ width)
    (rest : List Char) : readDigits part width (Text.padded width n ++ rest) = .ok (n, rest) := by
  have hlen := Text.length_padded pos h
  have htake : (Text.padded width n ++ rest).take width = Text.padded width n := List.take_left' hlen
  have hdrop : (Text.padded width n ++ rest).drop width = rest := List.drop_left' hlen
  have hall : (Text.padded width n).all Char.isDigit = true :=
    List.all_eq_true.2 fun c hc => Text.isDigit_of_mem_padded hc
  simp only [readDigits, htake, hdrop, hlen, hall, Text.digitsValue_padded, decide_true, Bool.and_self, if_true]

/-- A required character is passed over. -/
theorem DateFault.readLiteral_cons (c : Char) (rest : List Char) : readLiteral c (c :: rest) = .ok rest := by
  simp only [readLiteral, if_true]

/-- A year of four digits is read without a sign. -/
theorem DateFault.readSignedYear_padded {n : Nat} (h : n < 10 ^ 4) (rest : List Char) :
    readSignedYear (Text.padded 4 n ++ rest) = .ok ((n : Int), rest) := by
  have hread := readDigits_padded .year (by decide : 0 < 4) h rest
  obtain ⟨c, cs, hpadded, hc⟩ := Text.exists_padded 4 n
  rw [hpadded, List.cons_append] at hread ⊢
  unfold readSignedYear
  -- a digit is none of the two signs
  split
  · next heq =>
    obtain ⟨rfl, -⟩ := List.cons.inj heq
    exact absurd hc (by decide)
  · next heq =>
    obtain ⟨rfl, -⟩ := List.cons.inj heq
    exact absurd hc (by decide)
  · rw [hread]
    rfl

/-- A year of four digits is read as it is spelled, with a sign or without one. -/
theorem DateFault.readSignedYear_yearText {year : Int} (h : year.natAbs < 10 ^ 4) (rest : List Char) :
    readSignedYear (Date.yearText year ++ rest) = .ok (year, rest) := by
  unfold Date.yearText
  split
  · next hneg =>
    have hread := readDigits_padded .year (by decide : 0 < 4) h rest
    have hyear : -(year.natAbs : Int) = year := by omega
    simp only [List.cons_append, readSignedYear, hread, bind, Except.bind, hyear]
  · next hpos =>
    have hyear : (year.natAbs : Int) = year := by omega
    rw [readSignedYear_padded h, hyear]

namespace Timestamp

/-- The year in universal time has four digits and no sign. -/
def InEra (t : Timestamp) : Prop := 0 ≤ t.utcClock.date.year ∧ t.utcClock.date.year ≤ 9999

instance (t : Timestamp) : Decidable t.InEra := inferInstanceAs (Decidable (_ ∧ _))

/-- A year of four digits lies in the calendar. -/
theorem InEra.natAbs_le {t : Timestamp} (h : t.InEra) : t.utcClock.date.year.natAbs ≤ 9999 := by
  obtain ⟨h0, h9⟩ := h
  omega

/-- An instant in a year of four digits has a date. -/
theorem InEra.hasUtcDate {t : Timestamp} (h : t.InEra) : t.hasUtcDate = true := decide_eq_true h.natAbs_le

/-- The microseconds since the start of 1970, rounded down. -/
def micros (t : Timestamp) : Int := t.nanos / 1000

/-- The instant in universal time, cut to the microsecond. -/
def floored (t : Timestamp) : Timestamp := ⟨t.micros * 1000, 0⟩

/-- The characters of a stored reading. -/
def storedChars (r : ClockReading) : List Char :=
  Text.padded 4 r.date.year.natAbs ++ '-' :: (Text.padded 2 r.date.month ++ '-' :: (Text.padded 2 r.date.day ++
    'T' :: (Text.padded 2 r.hour ++ ':' :: (Text.padded 2 r.minute ++ ':' :: (Text.padded 2 r.second ++
      '.' :: (Text.padded 6 (r.nanosecond / 1000) ++ ['Z']))))))

/-- The stored form of an instant whose year has four digits. -/
theorem stored?_eq {t : Timestamp} (h : t.InEra) : t.stored? = some (String.ofList (storedChars t.utcClock)) := by
  have hyear : ¬t.utcClock.date.year < 0 := Int.not_lt.2 h.1
  simp only [stored?, h.hasUtcDate, if_true, Date.chars, Date.yearText, hyear, if_false, ClockReading.timeChars,
    storedChars, List.append_assoc, List.cons_append]

/-- The parts of a date in a year of four digits have their widths. -/
theorem widths {r : ClockReading} (h : r.Proper) (hyear : r.date.year.natAbs ≤ 9999) :
    r.date.year.natAbs < 10 ^ 4 ∧ r.date.month < 10 ^ 2 ∧ r.date.day < 10 ^ 2 ∧ r.hour < 10 ^ 2 ∧ r.minute < 10 ^ 2 ∧
      r.second < 10 ^ 2 ∧ r.nanosecond / 1000 < 10 ^ 6 := by
  obtain ⟨hd, hh, hm, hs, hn⟩ := h
  obtain ⟨hm1, hm2, hd1, hd2⟩ := (Date.isDay_iff r.date).1 hd
  have hday : r.date.day ≤ 31 := Nat.le_trans hd2 (Date.monthLength_le r.date.year hm2)
  refine ⟨?_, ?_, ?_, ?_, ?_, ?_, ?_⟩ <;> omega

/-- The date at the front of a stored text is read. -/
theorem readFront_chars {r : ClockReading} (h : r.Proper) (hyear : r.date.year.natAbs ≤ 9999) (rest : List Char) :
    Date.readFront (r.date.chars ++ rest) = .ok (r.date, rest) := by
  obtain ⟨wy, wm, wd, -⟩ := widths h hyear
  obtain ⟨hm1, hm2, hd1, -⟩ := (Date.isDay_iff r.date).1 h.date
  have hmonth : (r.date.month = 0 || 12 < r.date.month) = false := by simp; omega
  have hday : ¬r.date.day = 0 := by omega
  simp only [Date.chars, List.append_assoc, List.cons_append, Date.readFront, DateFault.readSignedYear_yearText wy,
    DateFault.readLiteral_cons, DateFault.readMonthDay, DateFault.readDigits_padded _ (by decide : 0 < 2) wm,
    DateFault.readDigits_padded _ (by decide : 0 < 2) wd, hmonth, hday, bind, Except.bind, if_false, Bool.false_eq_true]

/-- What is stored of an instant is read back as the instant cut to the microsecond. -/
theorem ofStored?_of_stored? {t : Timestamp} {text : String} (ht : t.stored? = some text) :
    ofStored? text = some t.floored := by
  have hr := ClockReading.ofNanos_spec t.nanos
  have hnanos : t.utcClock.nanos = t.nanos := ClockReading.nanos_ofNanos t.nanos
  unfold stored? at ht
  dsimp only at ht
  split at ht
  · next hdate =>
    have hyear : t.utcClock.date.year.natAbs ≤ 9999 := of_decide_eq_true hdate
    obtain ⟨-, -, -, wh, wm, ws, wn⟩ := widths hr hyear
    have hclock : (⟨t.utcClock.date, t.utcClock.hour, t.utcClock.minute, t.utcClock.second,
        t.utcClock.nanosecond / 1000 * 1000⟩ : ClockReading).nanos = t.micros * 1000 := by
      rw [micros, ← hnanos]
      simp only [ClockReading.nanos, ClockReading.seconds, ClockReading.nanosPerSecond]
      omega
    obtain ⟨hd, hh, hm, hs, -⟩ : t.utcClock.Proper := hr
    have hh' : ¬23 < t.utcClock.hour := by omega
    have hm' : ¬59 < t.utcClock.minute := by omega
    have hs' : ¬59 < t.utcClock.second := by omega
    have hday : (!t.utcClock.date.isDay) = false := by rw [hd]; rfl
    have hfront := readFront_chars (ClockReading.ofNanos_spec t.nanos) hyear
    rw [Option.some.injEq] at ht
    rw [← ht]
    simp only [ofStored?, readStored, String.toList_ofList, ClockReading.timeChars, List.append_assoc,
      List.cons_append, utcClock] at *
    simp only [hfront, DateFault.readLiteral_cons, DateFault.readDigits_padded _ (by decide : 0 < 2) wh,
      DateFault.readDigits_padded _ (by decide : 0 < 2) wm, DateFault.readDigits_padded _ (by decide : 0 < 2) ws,
      DateFault.readDigits_padded _ (by decide : 0 < 6) wn, bind, Except.bind, List.isEmpty_nil, hday, hh', hm', hs',
      ofClock, hclock, if_false, Bool.not_true, Bool.false_eq_true, floored, Int.zero_mul, Int.sub_zero]
    rfl
  · cases ht

/-- What follows a date decides between texts of one day. -/
theorem date_append_lt_iff {r s : ClockReading} (hr : r.Proper) (hs : s.Proper) (hr0 : 0 ≤ r.date.year)
    (hr9 : r.date.year ≤ 9999) (hs0 : 0 ≤ s.date.year) (hs9 : s.date.year ≤ 9999) (x y : List Char) :
    Text.padded 4 r.date.year.natAbs ++ '-' :: (Text.padded 2 r.date.month ++ '-' :: (Text.padded 2 r.date.day ++ x)) <
        Text.padded 4 s.date.year.natAbs ++
          '-' :: (Text.padded 2 s.date.month ++ '-' :: (Text.padded 2 s.date.day ++ y)) ↔
      r.date.dayNumber < s.date.dayNumber ∨ r.date.dayNumber = s.date.dayNumber ∧ x < y := by
  obtain ⟨ry, rm, rd, -⟩ := widths hr (by omega)
  obtain ⟨sy, sm, sd, -⟩ := widths hs (by omega)
  have hsame : r.date.dayNumber = s.date.dayNumber ↔
      r.date.year = s.date.year ∧ r.date.month = s.date.month ∧ r.date.day = s.date.day := by
    constructor
    · intro h
      rw [Date.eq_of_dayNumber_eq hr.date hs.date h]
      exact ⟨rfl, rfl, rfl⟩
    · rintro ⟨h1, h2, h3⟩
      rw [Date.dayNumber, Date.dayNumber, Date.dayOfYear, Date.dayOfYear, h1, h2, h3]
  have hyear : r.date.year.natAbs < s.date.year.natAbs ↔ r.date.year < s.date.year := by omega
  have hyear' : r.date.year.natAbs = s.date.year.natAbs ↔ r.date.year = s.date.year := by omega
  rw [Text.padded_append_lt_iff (by decide) ry sy, List.cons_lt_cons_self,
    Text.padded_append_lt_iff (by decide) rm sm, List.cons_lt_cons_self, Text.padded_append_lt_iff (by decide) rd sd,
    Date.dayNumber_lt_iff hr.date hs.date, hsame, hyear, hyear', Date.Before]
  constructor
  · rintro (h | ⟨h, h' | ⟨h', h'' | ⟨h'', hxy⟩⟩⟩)
    · exact .inl (.inl h)
    · exact .inl (.inr ⟨h, .inl h'⟩)
    · exact .inl (.inr ⟨h, .inr ⟨h', h''⟩⟩)
    · exact .inr ⟨⟨h, h', h''⟩, hxy⟩
  · rintro ((h | ⟨h, h' | ⟨h', h''⟩⟩) | ⟨⟨h, h', h''⟩, hxy⟩)
    · exact .inl h
    · exact .inr ⟨h, .inl h'⟩
    · exact .inr ⟨h, .inr ⟨h', .inl h''⟩⟩
    · exact .inr ⟨h, .inr ⟨h', .inr ⟨h'', hxy⟩⟩⟩

/-- The microseconds that have passed, as a clock shows them. -/
theorem micros_eq (t : Timestamp) :
    t.micros = t.utcClock.seconds * 1000000 + (t.utcClock.nanosecond / 1000 : Nat) := by
  rw [micros, ← ClockReading.nanos_div, utcClock, ClockReading.nanos_ofNanos]

/-- Stored readings are ordered by the microseconds that have passed. -/
theorem storedChars_lt_iff {t u : Timestamp} (ht : t.InEra) (hu : u.InEra) :
    storedChars t.utcClock < storedChars u.utcClock ↔ t.micros < u.micros := by
  have hr : t.utcClock.Proper := ClockReading.ofNanos_spec t.nanos
  have hs : u.utcClock.Proper := ClockReading.ofNanos_spec u.nanos
  obtain ⟨-, -, -, rh, rm, rs, rn⟩ := widths hr ht.natAbs_le
  obtain ⟨-, -, -, sh, sm, ss, sn⟩ := widths hs hu.natAbs_le
  have hz : ¬(['Z'] < ['Z']) := by decide
  rw [micros_eq, micros_eq]
  unfold storedChars
  rw [date_append_lt_iff hr hs ht.1 ht.2 hu.1 hu.2, List.cons_lt_cons_self, Text.padded_append_lt_iff (by decide) rh sh,
    List.cons_lt_cons_self, Text.padded_append_lt_iff (by decide) rm sm, List.cons_lt_cons_self,
    Text.padded_append_lt_iff (by decide) rs ss, List.cons_lt_cons_self, Text.padded_append_lt_iff (by decide) rn sn]
  obtain ⟨-, hrh, hrm, hrs, -⟩ := hr
  obtain ⟨-, hsh, hsm, hss, -⟩ := hs
  simp only [ClockReading.seconds, ClockReading.secondsPerDay, hz, and_false, or_false]
  generalize t.utcClock.nanosecond / 1000 = p at rn ⊢
  generalize u.utcClock.nanosecond / 1000 = q at sn ⊢
  omega

/-- Stored texts are ordered as the instants are, cut to the microsecond. -/
theorem stored_lt_iff {t u : Timestamp} (ht : t.InEra) (hu : u.InEra) {a b : String} (ha : t.stored? = some a)
    (hb : u.stored? = some b) : a < b ↔ t.micros < u.micros := by
  rw [stored?_eq ht, Option.some.injEq] at ha
  rw [stored?_eq hu, Option.some.injEq] at hb
  subst ha hb
  rw [← storedChars_lt_iff ht hu]
  change (String.ofList _).toList < (String.ofList _).toList ↔ _
  rw [String.toList_ofList, String.toList_ofList]

/-- The stored text of an instant whose year is before the year 0 begins with a sign, which stands before all digits. -/
theorem stored_lt_of_not_inEra {t u : Timestamp} (ht : ¬t.InEra) (hu : u.InEra) {a b : String} (ha : t.stored? = some a)
    (hb : u.stored? = some b) : a < b := by
  obtain ⟨c, cs, hyear, hdigit⟩ := Text.exists_padded 4 u.utcClock.date.year.natAbs
  have hsign : '-' < c := by
    simp only [Char.isDigit, Bool.and_eq_true, decide_eq_true_eq] at hdigit
    exact Nat.lt_of_lt_of_le (by decide : '-'.toNat < 48) hdigit.1
  rw [stored?_eq hu, Option.some.injEq] at hb
  unfold stored? at ha
  dsimp only at ha
  split at ha
  · next hdate =>
    have hbefore : t.utcClock.date.year < 0 := by
      have hle := of_decide_eq_true hdate
      unfold furthestYear at hle
      unfold InEra at ht
      omega
    rw [Option.some.injEq] at ha
    rw [← ha, ← hb]
    change (String.ofList _).toList < (String.ofList _).toList
    rw [String.toList_ofList, String.toList_ofList, storedChars, hyear, Date.chars, Date.yearText, if_pos hbefore]
    exact List.cons_lt_cons_iff.2 (.inl hsign)
  · cases ha

/-- Stored texts keep the order of instants. -/
theorem stored_le {t u : Timestamp} (hu : u.InEra) {a b : String} (ha : t.stored? = some a) (hb : u.stored? = some b)
    (h : t.micros ≤ u.micros) : a ≤ b := by
  by_cases ht : t.InEra
  · exact String.not_lt.1 fun hlt => Int.not_lt.2 h ((stored_lt_iff hu ht hb ha).1 hlt)
  · have hlt := stored_lt_of_not_inEra ht hu ha hb
    exact String.not_lt.1 (String.lt_asymm hlt)

/-- Instants of one stored text are the same, cut to the microsecond. -/
theorem micros_eq_of_stored?_eq {t u : Timestamp} (hu : u.InEra) {a : String} (ha : t.stored? = some a)
    (ha' : u.stored? = some a) : t.micros = u.micros := by
  by_cases ht : t.InEra
  · have hlt := stored_lt_iff ht hu ha ha'
    have hgt := stored_lt_iff hu ht ha' ha
    have hirrefl := String.lt_irrefl a
    simp only [hirrefl, false_iff] at hlt hgt
    omega
  · exact absurd (stored_lt_of_not_inEra ht hu ha ha') (String.lt_irrefl a)

/-- Stored times are faithful and sort by time. Two instants whose years in universal time have four digits and
no sign can be stored. Their texts are read back as the instants in universal time, cut to the microsecond.
Octet by octet, the text of the one stands in front of that of the other or is the same, exactly when the one
instant, cut to the microsecond, is not later than the other. -/
theorem stored_sorts {t u : Timestamp} (ht : t.InEra) (hu : u.InEra) :
    ∃ a b, t.stored? = some a ∧ u.stored? = some b ∧ ofStored? a = some t.floored ∧ ofStored? b = some u.floored ∧
      (Text.octets a.toList < Text.octets b.toList ∨ a = b ↔ t.floored.nanos ≤ u.floored.nanos) := by
  have ha := stored?_eq ht
  have hb := stored?_eq hu
  refine ⟨_, _, ha, hb, ofStored?_of_stored? ha, ofStored?_of_stored? hb, ?_⟩
  have hfloored : t.floored.nanos ≤ u.floored.nanos ↔ ¬u.micros < t.micros := by
    simp only [floored]
    omega
  rw [Text.octets_lt_or_eq_iff, hfloored, ← String.not_lt, stored_lt_iff hu ht hb ha]

/-- The last second of a leap day two hours ahead of universal time, and what clocks five hours behind it show
in the next microsecond. -/
theorem stored_sorts_of_leap_day :
    let t := ofClock ⟨⟨2024, 2, 29⟩, 23, 59, 59, 123456789⟩ 7200
    let u := ofClock ⟨⟨2024, 2, 29⟩, 16, 59, 59, 123457000⟩ (-18000)
    t.InEra ∧ u.InEra ∧ t.stored? = some "2024-02-29T21:59:59.123456Z" ∧
      u.stored? = some "2024-02-29T21:59:59.123457Z" ∧
      ofStored? "2024-02-29T21:59:59.123456Z" = some t.floored ∧ t.floored ≠ t.toUtc ∧
      Text.octets "2024-02-29T21:59:59.123456Z".toList < Text.octets "2024-02-29T21:59:59.123457Z".toList := by
  intro t u
  have ht : t.InEra := by decide +kernel
  have hu : u.InEra := by decide +kernel
  have hfirst : t.stored? = some "2024-02-29T21:59:59.123456Z" := by decide +kernel
  have hsecond : u.stored? = some "2024-02-29T21:59:59.123457Z" := by decide +kernel
  obtain ⟨a, b, ha, hb, hread, -, hsorts⟩ := stored_sorts ht hu
  obtain rfl : a = "2024-02-29T21:59:59.123456Z" := Option.some.inj (ha.symm.trans hfirst)
  obtain rfl : b = "2024-02-29T21:59:59.123457Z" := Option.some.inj (hb.symm.trans hsecond)
  have hbefore := (hsorts.2 (by decide +kernel)).resolve_right (by decide +kernel)
  exact ⟨ht, hu, ha, hb, hread, by decide +kernel, hbefore⟩

end Timestamp

end SnapshotLedger
