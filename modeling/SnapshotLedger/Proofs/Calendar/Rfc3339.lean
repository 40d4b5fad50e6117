import SnapshotLedger.Error
import SnapshotLedger.Proofs.Calendar.Stored

/-!
# Timestamps of the Internet

What is written of an instant whose year in universal time has four digits is read back as the instant, to the
nanosecond (`readRfc3339_of_rfc3339`). So a logical date and its run key determine each other
(`Run.logicalRunKey_canonical`).
-/

namespace SnapshotLedger

namespace Timestamp

/-- What is written of a fraction that is not zero has digits, and with some zeros behind them they are all nine. -/
theorem fractionChars_spec {n : Nat} (hn : n ≠ 0) :
    ∃ ds zeros, fractionChars n = '.' :: ds ∧ ds ≠ [] ∧ Text.padded 9 n = ds ++ List.replicate zeros '0' := by
  obtain ⟨zeros, hpadded⟩ := Text.exists_zeros (Text.padded 9 n)
  refine ⟨_, zeros, if_neg hn, ?_, hpadded⟩
  -- nothing but zeros would spell zero
  intro hnil
  rw [hnil, List.nil_append] at hpadded
  apply hn
  rw [← Text.digitsValue_padded 9 n, hpadded, Text.digitsValue_eq, Nat.ofDigitChars_replicate_zero, Nat.mul_zero]

/-- The digits in front of an offset are a fraction, with zeros behind them to make them nine. -/
theorem readFraction_digits {ds : List Char} {zeros : Nat} (hne : ds ≠ []) (hdigits : ∀ c ∈ ds, c.isDigit = true)
    (hlen : ds.length + zeros = 9) :
    readFraction (ds ++ ['Z']) = .ok (Text.digitsValue (ds ++ List.replicate zeros '0'), ['Z']) := by
  have htake : (ds ++ ['Z']).takeWhile Char.isDigit = ds := by
    rw [List.takeWhile_append_of_pos hdigits]
    exact List.append_nil ds
  have hdrop : (ds ++ ['Z']).dropWhile Char.isDigit = ['Z'] := List.dropWhile_append_of_pos hdigits
  have hkept : ds.take 9 = ds := List.take_of_length_le (by omega)
  have hzeros : 9 - ds.length = zeros := by omega
  have hempty : ds.isEmpty = false := List.isEmpty_eq_false_iff.2 hne
  simp only [readFraction, htake, hdrop, hkept, hzeros, hempty, Bool.false_eq_true, if_false]

/-- The fraction of a whole second is not written, and that of another one is read back. -/
theorem readFraction_fractionChars {n : Nat} (h : n < 10 ^ 9) :
    n = 0 ∧ fractionChars n = [] ∨ ∃ ds, fractionChars n = '.' :: ds ∧ readFraction (ds ++ ['Z']) = .ok (n, ['Z']) := by
  by_cases hn : n = 0
  · exact .inl ⟨hn, if_pos hn⟩
  · obtain ⟨ds, zeros, hfraction, hne, hpadded⟩ := fractionChars_spec hn
    have hdigits : ∀ c ∈ ds, c.isDigit = true := by
      intro c hc
      apply Text.isDigit_of_mem_padded
      rw [hpadded]
      exact List.mem_append_left _ hc
    have hlen := Text.length_padded (by decide : 0 < 9) h
    rw [hpadded, List.length_append, List.length_replicate] at hlen
    refine .inr ⟨ds, hfraction, ?_⟩
    rw [readFraction_digits hne hdigits hlen, ← hpadded, Text.digitsValue_padded]

/-- What a clock can show is a timestamp at every offset. -/
theorem ofParts_of_proper {r : ClockReading} (h : r.Proper) (offset : Int) :
    ofParts r offset = .ok (ofClock r offset) := by
  obtain ⟨hdate, hhour, hminute, hsecond, -⟩ := h
  obtain ⟨-, hmonth, -⟩ := (Date.isDay_iff r.date).1 hdate
  have hm : ¬12 < r.date.month := by omega
  have hh : ¬23 < r.hour := by omega
  have hmin : ¬59 < r.minute := by omega
  simp only [ofParts, hm, hh, hmin, hdate, hsecond, if_false, if_true, Bool.not_true, Bool.false_eq_true, bind,
    Except.bind]

/-- What a clock shows in universal time is read back. -/
theorem readRfc3339_chars {r : ClockReading} (h : r.Proper) (h0 : 0 ≤ r.date.year) (h9 : r.date.year ≤ 9999) :
    readRfc3339 (String.ofList (r.date.chars ++ 'T' :: r.timeChars ++ fractionChars r.nanosecond ++ ['Z'])) =
      .ok (ofClock r 0) := by
  obtain ⟨wy, wm, wd, wh, wmin, ws, -⟩ := widths h (by omega)
  obtain ⟨hm1, -⟩ := (Date.isDay_iff r.date).1 h.date
  have hmonth : ¬r.date.month = 0 := by omega
  have hneg : ¬r.date.year < 0 := by omega
  have hyear : ((r.date.year.natAbs : Nat) : Int) = r.date.year := by omega
  have hseparator : ∀ rest, readSeparator ('T' :: rest) = .ok rest := fun _ => rfl
  have hoffset : readOffset ['Z'] = .ok (0, []) := rfl
  simp only [readRfc3339, String.toList_ofList, Date.chars, Date.yearText, hneg, ClockReading.timeChars,
    List.append_assoc, List.cons_append, DateFault.readLiteral_cons,
    DateFault.readDigits_padded _ (by decide : 0 < 4) wy, DateFault.readDigits_padded _ (by decide : 0 < 2) wm,
    DateFault.readDigits_padded _ (by decide : 0 < 2) wd, hseparator,
    DateFault.readDigits_padded _ (by decide : 0 < 2) wh,
    DateFault.readDigits_padded _ (by decide : 0 < 2) wmin,
    DateFault.readDigits_padded _ (by decide : 0 < 2) ws, hmonth, hyear, if_false, bind, Except.bind]
  rw [← ofParts_of_proper h 0]
  -- the offset follows at once where there is no fraction
  rcases readFraction_fractionChars h.nanosecond with ⟨hzero, hfraction⟩ | ⟨ds, hfraction, hread⟩
  · rw [hfraction, ← hzero]
    rfl
  · simp only [hfraction, List.cons_append, hread, hoffset]
    rfl

/-- An instant whose year in universal time has four digits has a text, from which it is read back in universal time. -/
theorem readRfc3339_of_rfc3339 {t : Timestamp} (h : t.InEra) :
    ∃ text, t.rfc3339 = .ok text ∧ readRfc3339 text = .ok t.toUtc := by
  have hproper : t.utcClock.Proper := ClockReading.ofNanos_spec t.nanos
  have hnanos : t.utcClock.nanos = t.nanos := ClockReading.nanos_ofNanos t.nanos
  have hyear : ¬t.utcClock.date.year < 0 := Int.not_lt.2 h.1
  have hutc : ofClock t.utcClock 0 = t.toUtc := by
    rw [ofClock, toUtc, hnanos, Int.zero_mul, Int.sub_zero]
  refine ⟨_, ?_, hutc ▸ readRfc3339_chars hproper h.1 h.2⟩
  simp only [rfc3339, h.hasUtcDate, hyear, Bool.not_true, Bool.false_eq_true, if_false]

end Timestamp

namespace Run

/-- Logical dates of one instant have the same run key. -/
theorem logicalRunKey_congr {t u : Timestamp} (h : t.nanos = u.nanos) : logicalRunKey t = logicalRunKey u := by
  unfold logicalRunKey runKeyOf Timestamp.rfc3339 Timestamp.hasUtcDate Timestamp.utcClock
  rw [h]

/-- A logical date whose year in universal time has four digits has a run key, from which the instant is read back. -/
theorem readUniversal_of_logicalRunKey {t : Timestamp} (h : t.InEra) :
    ∃ key, logicalRunKey t = .ok key ∧ Timestamp.readUniversal key = .ok t.toUtc := by
  obtain ⟨key, hkey, hread⟩ := Timestamp.readRfc3339_of_rfc3339 h
  refine ⟨key, ?_, ?_⟩
  · rw [logicalRunKey, runKeyOf, hkey]
    rfl
  · rw [Timestamp.readUniversal, hread]
    rfl

/--
Logical dates whose years in universal time have four digits have run keys, and these are the same exactly for
the same instant. A run key is read back as the instant in universal time, which has the same run key again.
-/
theorem logicalRunKey_canonical {t u : Timestamp} (ht : t.InEra) (hu : u.InEra) :
    ∃ key other, logicalRunKey t = .ok key ∧ logicalRunKey u = .ok other ∧ (key = other ↔ t.nanos = u.nanos) ∧
      Timestamp.readUniversal key = .ok t.toUtc ∧ logicalRunKey t.toUtc = .ok key := by
  obtain ⟨key, hkey, hread⟩ := readUniversal_of_logicalRunKey ht
  obtain ⟨other, hother, hread'⟩ := readUniversal_of_logicalRunKey hu
  refine ⟨key, other, hkey, hother, ⟨?_, ?_⟩, hread, ?_⟩
  · rintro rfl
    rw [hread, Except.ok.injEq] at hread'
    exact (Timestamp.mk.inj hread').1
  · intro h
    rw [logicalRunKey_congr h, hother, Except.ok.injEq] at hkey
    exact hkey.symm
  · have hagain : logicalRunKey t.toUtc = logicalRunKey t := logicalRunKey_congr rfl
    rw [hagain, hkey]

/-- Half an hour into the first of March at one place, and half past six in the evening of the leap day at another. -/
theorem logicalRunKey_canonical_of_leap_day :
    let t := Timestamp.ofClock ⟨⟨2024, 3, 1⟩, 0, 30, 0, 100000000⟩ 3600
    let u := Timestamp.ofClock ⟨⟨2024, 2, 29⟩, 18, 30, 0, 100000000⟩ (-18000)
    t.InEra ∧ u.InEra ∧ ∃ key, logicalRunKey t = .ok key ∧ logicalRunKey u = .ok key ∧
      Timestamp.readUniversal key = .ok t.toUtc ∧ logicalRunKey t.toUtc = .ok key := by
  intro t u
  have ht : t.InEra := by decide +kernel
  have hu : u.InEra := by decide +kernel
  obtain ⟨key, other, hkey, hother, hsame, hread, hagain⟩ := logicalRunKey_canonical ht hu
  obtain rfl : key = other := hsame.2 (by decide +kernel)
  exact ⟨ht, hu, key, hkey, hother, hread, hagain⟩

end Run

end SnapshotLedger
