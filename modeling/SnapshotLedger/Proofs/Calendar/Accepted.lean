import SnapshotLedger.Proofs.Answers
import SnapshotLedger.Proofs.Calendar.Rfc3339

/-!
# What timestamps of the Internet stand for

A text that is accepted shows a year of four digits on a clock less than a day away from universal time
(`accepted_of_readRfc3339`). So its year in universal time has four digits as well, unless it is carried over an
end of these years: back from the first day of the year 0 by an offset later than its time (`CarriesBack`), or
over from the last day of the year 9999 (`CarriesOver`).
-/

namespace SnapshotLedger

/-! ## Seconds of days -/

namespace ClockReading

/-- Clocks that have run for the same time show the same. -/
theorem ofNanos_nanos {r : ClockReading} (h : r.Proper) : ofNanos r.nanos = r := by
  have hsame : (ofNanos r.nanos).nanos = r.nanos := nanos_ofNanos r.nanos
  obtain ⟨hdate, hhour, hminute, hsecond, hnanosecond⟩ := ofNanos_spec r.nanos
  generalize ofNanos r.nanos = q at *
  obtain ⟨hdate', hhour', hminute', hsecond', hnanosecond'⟩ := h
  simp only [nanos, seconds, nanosPerSecond, secondsPerDay] at hsame
  have hday : q.date = r.date := by
    apply Date.eq_of_dayNumber_eq hdate hdate'
    omega
  rw [hday] at hsame
  have hparts : q.hour = r.hour ∧ q.minute = r.minute ∧ q.second = r.second ∧ q.nanosecond = r.nanosecond := by omega
  obtain ⟨hh, hm, hs, hn⟩ := hparts
  cases q
  exact (mk.injEq ..).mpr ⟨hday, hh, hm, hs, hn⟩

/-- The seconds of the day that have passed. -/
def secondOfDay (r : ClockReading) : Nat := r.hour * 3600 + r.minute * 60 + r.second

/-- What a clock shows is a day and a time in it. -/
theorem seconds_eq (r : ClockReading) : r.seconds = r.date.dayNumber * secondsPerDay + r.secondOfDay := by
  simp only [seconds, secondOfDay]
  omega

theorem Proper.secondOfDay_lt {r : ClockReading} (h : r.Proper) : (r.secondOfDay : Int) < secondsPerDay := by
  obtain ⟨-, hhour, hminute, hsecond, -⟩ := h
  simp only [secondOfDay, secondsPerDay]
  omega

end ClockReading

/-! ## Accepted texts -/

/-- A part of so many digits is less than the power of ten. -/
theorem DateFault.lt_of_readDigits {part : DatePart} {count n : Nat} {s rest : List Char}
    (h : readDigits part count s = .ok (n, rest)) : n < 10 ^ count := by
  unfold readDigits at h
  dsimp only at h
  split at h
  · next hdigits =>
    cases h
    rw [Bool.and_eq_true, decide_eq_true_eq, List.all_eq_true] at hdigits
    have hlt := Text.digitsValue_lt hdigits.2
    rw [hdigits.1] at hlt
    exact hlt
  · cases h

namespace Timestamp

/-- A fraction is less than a second. -/
theorem lt_of_readFraction {n : Nat} {s rest : List Char} (h : readFraction s = .ok (n, rest)) : n < 1000000000 := by
  unfold readFraction at h
  dsimp only at h
  split at h
  · cases h
  · obtain ⟨rfl, -⟩ := Prod.mk.inj (Except.ok.inj h)
    have hlen : ((s.takeWhile Char.isDigit).take 9).length ≤ 9 := List.length_take_le 9 _
    have hdigits : ∀ c ∈ (s.takeWhile Char.isDigit).take 9, c.isDigit = true :=
      fun c hc => List.mem_takeWhile_imp (List.mem_of_mem_take hc)
    generalize (s.takeWhile Char.isDigit).take 9 = kept at hlen hdigits ⊢
    have hall : ∀ c ∈ kept ++ List.replicate (9 - kept.length) '0', c.isDigit = true := by
      intro c hc
      rcases List.mem_append.1 hc with hc | hc
      · exact hdigits c hc
      · rw [List.eq_of_mem_replicate hc]
        decide
    have hlt := Text.digitsValue_lt hall
    rw [List.length_append, List.length_replicate, Nat.add_sub_cancel' hlen] at hlt
    exact hlt

/-- An offset is less than a day. -/
theorem lt_of_readOffset {offset : Int} {s rest : List Char} (h : readOffset s = .ok (offset, rest)) :
    -86400 < offset ∧ offset < 86400 := by
  unfold readOffset at h
  split at h
  · cases h
    decide
  · cases h
    decide
  · next sign r _ _ =>
    obtain ⟨-, h⟩ := check_eq_ok h
    obtain ⟨⟨hours, r⟩, -, h⟩ := bind_eq_ok h
    obtain ⟨hhours, h⟩ := check_eq_ok h
    obtain ⟨r, -, h⟩ := bind_eq_ok h
    obtain ⟨⟨minutes, r⟩, -, h⟩ := bind_eq_ok h
    obtain ⟨hminutes, h⟩ := check_eq_ok h
    obtain ⟨rfl, -⟩ := Prod.mk.inj (Except.ok.inj h)
    split <;> omega
  · cases h

/-- What is made of the parts of a timestamp shows their date. -/
theorem ofParts_eq_ok {r : ClockReading} {offset : Int} {t : Timestamp} (hnanosecond : r.nanosecond < 1000000000)
    (h : ofParts r offset = .ok t) : ∃ r' : ClockReading, r'.Proper ∧ r'.date = r.date ∧ t = ofClock r' offset := by
  unfold ofParts at h
  obtain ⟨-, h⟩ := check_eq_ok h
  obtain ⟨hday, h⟩ := check_eq_ok h
  obtain ⟨hhour, h⟩ := check_eq_ok h
  obtain ⟨hminute, h⟩ := check_eq_ok h
  have hday : r.date.isDay = true := by simpa using hday
  dsimp only at h
  split at h
  · next hsecond =>
    cases h
    exact ⟨r, ⟨hday, by omega, by omega, hsecond, hnanosecond⟩, rfl, rfl⟩
  split at h
  · cases h
    -- a leap second stands for the last nanosecond before it
    have hlast : 59 < 60 ∧ 999999999 < 1000000000 := by decide
    refine ⟨{ r with second := 59, nanosecond := 999999999 }, ⟨hday, ?_, ?_, hlast.1, hlast.2⟩, rfl, rfl⟩
    · exact Nat.lt_of_not_le hhour
    · exact Nat.lt_of_not_le hminute
  · cases h

/-- What is read off an offset that ends a text is less than a day away from universal time. -/
theorem ofParts_readOffset_eq_ok {r : ClockReading} {s : List Char} {t : Timestamp}
    (hnanosecond : r.nanosecond < 1000000000)
    (h : (do
      let (offset, s) ← readOffset s
      if !s.isEmpty then .error .trailing
      ofParts r offset) = .ok t) :
    ∃ r' : ClockReading, r'.Proper ∧ r'.date = r.date ∧ -86400 < t.offset ∧ t.offset < 86400 ∧
      t = ofClock r' t.offset := by
  obtain ⟨⟨offset, s⟩, hoffset, h⟩ := bind_eq_ok h
  obtain ⟨-, h⟩ := check_eq_ok h
  obtain ⟨r', hr', hdate, rfl⟩ := ofParts_eq_ok hnanosecond h
  have hbounds := lt_of_readOffset hoffset
  exact ⟨r', hr', hdate, hbounds.1, hbounds.2, rfl⟩

/-- A text that is accepted is what a clock shows in a year of four digits, less than a day away from universal time. -/
theorem readRfc3339_eq_ok {text : String} {t : Timestamp} (h : readRfc3339 text = .ok t) :
    ∃ r : ClockReading, r.Proper ∧ 0 ≤ r.date.year ∧ r.date.year ≤ 9999 ∧ -86400 < t.offset ∧ t.offset < 86400 ∧
      t = ofClock r t.offset := by
  unfold readRfc3339 at h
  obtain ⟨⟨year, s⟩, hyear, h⟩ := bind_eq_ok h
  obtain ⟨s, -, h⟩ := bind_eq_ok h
  obtain ⟨⟨month, s⟩, -, h⟩ := bind_eq_ok h
  obtain ⟨-, h⟩ := check_eq_ok h
  obtain ⟨s, -, h⟩ := bind_eq_ok h
  obtain ⟨⟨day, s⟩, -, h⟩ := bind_eq_ok h
  obtain ⟨s, -, h⟩ := bind_eq_ok h
  obtain ⟨⟨hour, s⟩, -, h⟩ := bind_eq_ok h
  obtain ⟨s, -, h⟩ := bind_eq_ok h
  obtain ⟨⟨minute, s⟩, -, h⟩ := bind_eq_ok h
  obtain ⟨s, -, h⟩ := bind_eq_ok h
  obtain ⟨⟨second, s⟩, -, h⟩ := bind_eq_ok h
  have hlt := DateFault.lt_of_readDigits hyear
  have hend : ∃ r : ClockReading, r.Proper ∧ r.date = ⟨year, month, day⟩ ∧ -86400 < t.offset ∧ t.offset < 86400 ∧
      t = ofClock r t.offset := by
    dsimp only at h
    split at h
    · obtain ⟨⟨nanosecond, s⟩, hfraction, h⟩ := bind_eq_ok h
      exact ofParts_readOffset_eq_ok (lt_of_readFraction hfraction) h
    · exact ofParts_readOffset_eq_ok (by decide : 0 < 1000000000) h
  obtain ⟨r, hr, hdate, hbounds⟩ := hend
  refine ⟨r, hr, ?_, ?_, hbounds⟩
  · simp [hdate]
  · simp only [hdate]
    omega

/-! ## Years in universal time -/

/-- The timestamp is given by a clock in a year of four digits, less than a day away from universal time. -/
structure Accepted (t : Timestamp) : Prop where
  year_nonneg : 0 ≤ t.ownClock.date.year
  year_le : t.ownClock.date.year ≤ 9999
  lt_offset : -86400 < t.offset
  offset_lt : t.offset < 86400

/-- The clock shows the first day of the year 0 at a time before its offset. -/
def CarriesBack (t : Timestamp) : Prop := t.ownClock.date = ⟨0, 1, 1⟩ ∧ (t.ownClock.secondOfDay : Int) < t.offset

/-- The clock shows the last day of the year 9999 at a time that is beyond the end of the day in universal time. -/
def CarriesOver (t : Timestamp) : Prop :=
  t.ownClock.date = ⟨9999, 12, 31⟩ ∧ ClockReading.secondsPerDay ≤ t.ownClock.secondOfDay - t.offset

instance (t : Timestamp) : Decidable t.CarriesBack := inferInstanceAs (Decidable (_ ∧ _))

instance (t : Timestamp) : Decidable t.CarriesOver := inferInstanceAs (Decidable (_ ∧ _))

/-- A text that is accepted stands for what the clock in it shows. -/
theorem accepted_of_readRfc3339 {text : String} {t : Timestamp} (h : readRfc3339 text = .ok t) : t.Accepted := by
  obtain ⟨r, hr, h0, h9, hlt, hgt, heq⟩ := readRfc3339_eq_ok h
  have hown : t.ownClock = r := by
    have hnanos : t.nanos = r.nanos - t.offset * ClockReading.nanosPerSecond := congrArg Timestamp.nanos heq
    rw [ownClock, hnanos, Int.sub_add_cancel, ClockReading.ofNanos_nanos hr]
  exact ⟨by rw [hown]; exact h0, by rw [hown]; exact h9, hlt, hgt⟩

/-- Two clocks are as many seconds apart as the offset says. -/
theorem utcClock_seconds (t : Timestamp) : t.utcClock.seconds = t.ownClock.seconds - t.offset := by
  have hutc : t.utcClock.nanos = t.nanos := ClockReading.nanos_ofNanos _
  have hown : t.ownClock.nanos = t.nanos + t.offset * ClockReading.nanosPerSecond := ClockReading.nanos_ofNanos _
  have hutc' : t.utcClock.nanosecond < 1000000000 := (ClockReading.ofNanos_spec _).nanosecond
  have hown' : t.ownClock.nanosecond < 1000000000 := (ClockReading.ofNanos_spec _).nanosecond
  simp only [ClockReading.nanos, ClockReading.nanosPerSecond] at hutc hown
  omega

/-- The year in universal time has four digits but where it is carried over an end of these years, and then it
is the next one. -/
theorem Accepted.utc_year {t : Timestamp} (h : t.Accepted) :
    (t.InEra ↔ ¬t.CarriesBack ∧ ¬t.CarriesOver) ∧ (t.CarriesBack → t.utcClock.date.year = -1) ∧
      (t.CarriesOver → t.utcClock.date.year = 10000) := by
  have hutc : t.utcClock.Proper := ClockReading.ofNanos_spec _
  have hown : t.ownClock.Proper := ClockReading.ofNanos_spec _
  have hseconds := t.utcClock_seconds
  rw [ClockReading.seconds_eq, ClockReading.seconds_eq] at hseconds
  have hlt := hutc.secondOfDay_lt
  have hlt' := hown.secondOfDay_lt
  -- the first days of the years by their numbers
  have hown0 : t.ownClock.date.year < 0 ↔ t.ownClock.date.dayNumber < -719528 := Date.year_lt_iff hown.date
  have hown10000 : t.ownClock.date.year < 10000 ↔ t.ownClock.date.dayNumber < 2932897 := Date.year_lt_iff hown.date
  have hutc1 : t.utcClock.date.year < -1 ↔ t.utcClock.date.dayNumber < -719893 := Date.year_lt_iff hutc.date
  have hutc0 : t.utcClock.date.year < 0 ↔ t.utcClock.date.dayNumber < -719528 := Date.year_lt_iff hutc.date
  have hutc10000 : t.utcClock.date.year < 10000 ↔ t.utcClock.date.dayNumber < 2932897 := Date.year_lt_iff hutc.date
  have hutc10001 : t.utcClock.date.year < 10001 ↔ t.utcClock.date.dayNumber < 2933263 := Date.year_lt_iff hutc.date
  have hfirst : t.ownClock.date = ⟨0, 1, 1⟩ ↔ t.ownClock.date.dayNumber = -719528 :=
    Date.eq_iff_dayNumber_eq hown.date (by decide)
  have hlast : t.ownClock.date = ⟨9999, 12, 31⟩ ↔ t.ownClock.date.dayNumber = 2932896 :=
    Date.eq_iff_dayNumber_eq hown.date (by decide)
  rw [CarriesBack, CarriesOver, hfirst, hlast, InEra]
  obtain ⟨hyear0, hyear9, hoffset, hoffset'⟩ := h
  simp only [ClockReading.secondsPerDay] at *
  omega

end Timestamp

end SnapshotLedger
