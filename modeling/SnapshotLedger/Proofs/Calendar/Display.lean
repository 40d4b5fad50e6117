import SnapshotLedger.Proofs.Calendar.Stored

/-!
# Timestamps for readers

What is shown of a timestamp is what clocks show at its offset, and the offset (`Shows`). The fraction of a
second is shown when the nanoseconds are not zero, even if the microseconds are; so two timestamps with offsets
of whole minutes are shown alike exactly when they have the same offset and the same microsecond, and both or
neither of them is at a whole second (`display_shows`).
-/

namespace SnapshotLedger

/-! ## Parts that end where the next one begins -/

/-- A year is told by its digits and its sign in front of a hyphen. -/
theorem Date.yearText_append_inj {y z : Int} {r s : List Char} :
    yearText y ++ '-' :: r = yearText z ++ '-' :: s ↔ y = z ∧ r = s := by
  have hsign : ∀ {n : Nat} {r s : List Char}, Text.padded 4 n ++ r ≠ '-' :: s := by
    intro n r s h
    obtain ⟨c, cs, hpadded, hdigit⟩ := Text.exists_padded 4 n
    rw [hpadded] at h
    rw [(List.cons.inj h).1] at hdigit
    cases hdigit
  unfold yearText
  split <;> split
  · next hy hz =>
    have habs : y.natAbs = z.natAbs ↔ y = z := by omega
    rw [List.cons_append, List.cons_append, List.cons.injEq, Text.padded_append_inj rfl rfl, habs]
    simp
  · next hy hz =>
    refine ⟨fun h => absurd h.symm hsign, ?_⟩
    rintro ⟨rfl, -⟩
    exact absurd hy hz
  · next hy hz =>
    refine ⟨fun h => absurd h hsign, ?_⟩
    rintro ⟨rfl, -⟩
    exact absurd hz hy
  · next hy hz =>
    have habs : y.natAbs = z.natAbs ↔ y = z := by omega
    rw [Text.padded_append_inj rfl rfl, habs]
    simp

/-- A date is told by its text in front of a blank. -/
theorem Date.chars_append_inj {d e : Date} {r s : List Char} :
    d.chars ++ ' ' :: r = e.chars ++ ' ' :: s ↔ d = e ∧ r = s := by
  obtain ⟨y, m, n⟩ := d
  obtain ⟨z, l, k⟩ := e
  simp only [Date.chars, List.append_assoc, List.cons_append, Date.yearText_append_inj,
    Text.padded_append_inj (c := '-') (d := '-') rfl rfl, Text.padded_append_inj (c := ' ') (d := ' ') rfl rfl,
    List.cons.injEq, Date.mk.injEq, true_and, and_assoc]

namespace Timestamp

/-- An offset begins with a sign, which is no digit and no point. -/
theorem exists_offsetChars (offset : Int) :
    ∃ c r, offsetChars offset = c :: r ∧ c.isDigit = false ∧ c ≠ '.' := by
  refine ⟨_, _, rfl, ?_⟩
  split <;> decide

/-- An offset of whole minutes is told by its text. -/
theorem offsetChars_inj {o p : Int} (ho : 60 ∣ o) (hp : 60 ∣ p) : offsetChars o = offsetChars p ↔ o = p := by
  constructor
  · intro h
    obtain ⟨hsign, h⟩ := List.cons.inj h
    obtain ⟨hhours, h⟩ := (Text.padded_append_inj rfl rfl).1 h
    have hminutes := Text.padded_inj.1 (List.cons.inj h).2
    have hbehind : o < 0 ↔ p < 0 := by
      split at hsign <;> split at hsign
      · next ho hp => exact iff_of_true ho hp
      · exact absurd hsign (by decide)
      · exact absurd hsign (by decide)
      · next ho hp => exact iff_of_false ho hp
    omega
  · rintro rfl
    rfl

/-- Microseconds are told by their digits in front of an offset, and so is whether there are any. -/
theorem microsecondChars_append_inj {m n : Nat} {o p : Int} :
    microsecondChars m ++ offsetChars o = microsecondChars n ++ offsetChars p ↔
      (m = 0 ↔ n = 0) ∧ m / 1000 = n / 1000 ∧ offsetChars o = offsetChars p := by
  obtain ⟨c, r, ho, hc, hcpoint⟩ := exists_offsetChars o
  obtain ⟨d, s, hp, hd, hdpoint⟩ := exists_offsetChars p
  unfold microsecondChars
  rw [ho, hp]
  split <;> split
  · next hm hn => simp [hm, hn]
  · next hm hn => simp [hm, hn, hcpoint]
  · next hm hn => simp [hm, hn, hdpoint.symm]
  · next hm hn =>
    rw [List.cons_append, List.cons_append, List.cons.injEq, Text.padded_append_inj hc hd]
    simp [hm, hn]

/-- What follows a time begins with no digit. -/
theorem exists_behind_time (n : Nat) (offset : Int) :
    ∃ c r, microsecondChars n ++ offsetChars offset = c :: r ∧ c.isDigit = false := by
  obtain ⟨c, r, hoffset, hc, -⟩ := exists_offsetChars offset
  unfold microsecondChars
  split
  · exact ⟨c, r, hoffset, hc⟩
  · exact ⟨'.', _, rfl, rfl⟩

/-- What is shown of two timestamps is the same when all parts are. -/
theorem display_eq_iff_parts {t u : Timestamp} : t.display = u.display ↔
    (t.ownClock.date = u.ownClock.date ∧ t.ownClock.hour = u.ownClock.hour ∧ t.ownClock.minute = u.ownClock.minute ∧
      t.ownClock.second = u.ownClock.second) ∧
    (t.ownClock.nanosecond = 0 ↔ u.ownClock.nanosecond = 0) ∧
      t.ownClock.nanosecond / 1000 = u.ownClock.nanosecond / 1000 ∧
      offsetChars t.offset = offsetChars u.offset := by
  obtain ⟨c, r, htail, hc⟩ := exists_behind_time t.ownClock.nanosecond t.offset
  obtain ⟨d, s, utail, hd⟩ := exists_behind_time u.ownClock.nanosecond u.offset
  rw [← microsecondChars_append_inj, htail, utail]
  simp only [display, ← String.toList_inj, String.toList_ofList, ClockReading.timeChars, List.append_assoc,
    List.cons_append, htail, utail, Date.chars_append_inj, Text.padded_append_inj (c := ':') (d := ':') rfl rfl,
    Text.padded_append_inj hc hd, List.cons.injEq, true_and, and_assoc]

/-! ## What is shown -/

/-- The text shown of a timestamp: the date and the time of a clock that shows the instant at its offset, a
fraction of a second, and the offset with a minus where clocks are behind universal time and a plus elsewhere.
The fraction is that of whole microseconds in six digits, and there is none at a whole second. -/
structure Shows (t : Timestamp) (r : ClockReading) (hours minutes : Nat) (fraction : List Char) : Prop where
  proper : r.Proper
  clock : ofClock r t.offset = t
  offset : t.offset.natAbs = hours * 3600 + minutes * 60
  minutes_lt : minutes < 60
  whole : r.nanosecond = 0 → fraction = []
  microseconds : r.nanosecond ≠ 0 → ∃ ds, fraction = '.' :: ds ∧ ds.length = 6 ∧ (∀ c ∈ ds, c.isDigit = true) ∧
    Text.digitsValue ds = r.nanosecond / 1000
  text : t.display = String.ofList (r.date.chars ++ ' ' :: r.timeChars ++ fraction ++
    (if t.offset < 0 then '-' else '+') :: Text.padded 2 hours ++ ':' :: Text.padded 2 minutes)

variable {t u : Timestamp}

/-- A timestamp is what clocks show at its offset. -/
theorem ofClock_ownClock (t : Timestamp) : ofClock t.ownClock t.offset = t := by
  rw [ofClock, ownClock, ClockReading.nanos_ofNanos, Int.add_sub_cancel]

/-- A timestamp with an offset of whole minutes is shown. -/
theorem shows_display (ht : 60 ∣ t.offset) :
    t.Shows t.ownClock (t.offset.natAbs / 3600) (t.offset.natAbs / 60 % 60)
      (microsecondChars t.ownClock.nanosecond) := by
  have hproper : t.ownClock.Proper := ClockReading.ofNanos_spec _
  refine ⟨hproper, ofClock_ownClock t, by omega, by omega, fun hzero => if_pos hzero, fun hzero => ?_, ?_⟩
  · have hlt : t.ownClock.nanosecond / 1000 < 10 ^ 6 := by
      have := hproper.nanosecond
      omega
    exact ⟨_, if_neg hzero, Text.length_padded (by decide) hlt, fun _ => Text.isDigit_of_mem_padded,
      Text.digitsValue_padded _ _⟩
  · rw [display, offsetChars]
    simp only [List.append_assoc, List.cons_append]

/-- The microseconds of a timestamp, as clocks show them at its offset. -/
theorem micros_eq_ownClock (t : Timestamp) :
    t.micros = t.ownClock.seconds * 1000000 + (t.ownClock.nanosecond / 1000 : Nat) - t.offset * 1000000 := by
  have hnanos : t.ownClock.nanos - t.offset * ClockReading.nanosPerSecond = t.nanos :=
    congrArg Timestamp.nanos (ofClock_ownClock t)
  rw [← ClockReading.nanos_div, micros, ← hnanos, ClockReading.nanosPerSecond]
  omega

/-- A timestamp is at a whole second when clocks at its offset show one. -/
theorem ownClock_nanosecond_eq_zero_iff : t.ownClock.nanosecond = 0 ↔ t.nanos % 1000000000 = 0 := by
  simp only [ownClock, ClockReading.ofNanos, ClockReading.nanosPerSecond]
  omega

/-- Clocks that have run for as many seconds show the same date and time. -/
theorem ownClock_eq_iff : (t.ownClock.date = u.ownClock.date ∧ t.ownClock.hour = u.ownClock.hour ∧
    t.ownClock.minute = u.ownClock.minute ∧ t.ownClock.second = u.ownClock.second) ↔
    t.ownClock.seconds = u.ownClock.seconds := by
  have hseconds : ∀ n : Int, (ClockReading.ofNanos n).seconds = n / ClockReading.nanosPerSecond := by
    intro n
    have hnanos := ClockReading.nanos_ofNanos n
    have hlt := (ClockReading.ofNanos_spec n).nanosecond
    simp only [ClockReading.nanos, ClockReading.nanosPerSecond] at hnanos ⊢
    omega
  constructor
  · rintro ⟨hdate, hhour, hminute, hsecond⟩
    rw [ClockReading.seconds, ClockReading.seconds, hdate, hhour, hminute, hsecond]
  · intro h
    simp only [ownClock, hseconds] at h
    simp only [ownClock, ClockReading.ofNanos, h, true_and]

/-- Timestamps with offsets of whole minutes are shown alike when they have the same offset and the same
microsecond, and both or neither are at a whole second. -/
theorem display_eq_iff (ht : 60 ∣ t.offset) (hu : 60 ∣ u.offset) : t.display = u.display ↔
    t.offset = u.offset ∧ t.micros = u.micros ∧ (t.nanos % 1000000000 = 0 ↔ u.nanos % 1000000000 = 0) := by
  have hnanos := (ClockReading.ofNanos_spec (t.nanos + t.offset * ClockReading.nanosPerSecond)).nanosecond
  have hnanos' := (ClockReading.ofNanos_spec (u.nanos + u.offset * ClockReading.nanosPerSecond)).nanosecond
  rw [display_eq_iff_parts, ownClock_eq_iff, offsetChars_inj ht hu, ← ownClock_nanosecond_eq_zero_iff,
    ← ownClock_nanosecond_eq_zero_iff, micros_eq_ownClock, micros_eq_ownClock]
  change t.ownClock.nanosecond < _ at hnanos
  change u.ownClock.nanosecond < _ at hnanos'
  omega

/-- A timestamp with an offset of whole minutes is shown as the date and the time of a clock that shows the
instant at its offset, and as this offset with its sign, also where it is less than an hour. The fraction has
six digits, those of the whole microseconds, and it is shown exactly when the nanoseconds are not zero. So two
such timestamps are shown alike exactly when they have the same offset and the same microsecond, and both or
neither are at a whole second. -/
theorem display_shows (ht : 60 ∣ t.offset) : (∃ r hours minutes fraction, t.Shows r hours minutes fraction) ∧
    ∀ u : Timestamp, 60 ∣ u.offset → (t.display = u.display ↔
      t.offset = u.offset ∧ t.micros = u.micros ∧ (t.nanos % 1000000000 = 0 ↔ u.nanos % 1000000000 = 0)) :=
  ⟨⟨_, _, _, _, shows_display ht⟩, fun _ hu => display_eq_iff ht hu⟩

/-- Half an hour behind universal time, two instants of one microsecond are shown alike, and not like an instant
of the next one. -/
theorem display_shows_of_half_hour_behind : let t : Timestamp := ⟨1000, -1800⟩
    (∃ r hours minutes fraction, t.Shows r hours minutes fraction) ∧ t.display = (⟨1999, -1800⟩ : Timestamp).display ∧
      t.display ≠ (⟨2000, -1800⟩ : Timestamp).display := by
  intro t
  obtain ⟨hshows, halike⟩ := display_shows (t := t) (by decide)
  refine ⟨hshows, (halike ⟨1999, -1800⟩ (by decide)).2 (by decide), ?_⟩
  intro h
  have hmicros := ((halike ⟨2000, -1800⟩ (by decide)).1 h).2.1
  exact absurd hmicros (by decide)

/-- Two instants of one microsecond are shown with and without a fraction, though the microseconds of both are zero. -/
theorem display_departs_behind_whole_second :
    (⟨0, 0⟩ : Timestamp).micros = (⟨1, 0⟩ : Timestamp).micros ∧ (⟨1, 0⟩ : Timestamp).ownClock.nanosecond / 1000 = 0 ∧
      (⟨0, 0⟩ : Timestamp).display = "1970-01-01 00:00:00+00:00" ∧
      (⟨1, 0⟩ : Timestamp).display = "1970-01-01 00:00:00.000000+00:00" := by
  decide +kernel

end Timestamp

end SnapshotLedger
