import Mathlib.Algebra.GroupWithZero.Nat
import SnapshotLedger.Calendar.Timestamp

/-!
# Days, their dates, and what clocks show

Every day has one date: the date found for a number of days is a day of the calendar (`isDay_ofDayNumber`) and
has that number (`dayNumber_ofDayNumber`). Days are ordered as the years, months and days of their dates are
(`dayNumber_lt_iff`), and the days before a year are those with a date in an earlier one (`year_lt_iff`).

A clock that has run for some nanoseconds shows a date of the calendar and a time of the day (`ofNanos_spec`),
and what it shows says how long it has run (`nanos_ofNanos`).
-/

namespace SnapshotLedger.Date

/-- The years follow each other. -/
theorem daysBeforeYear_succ (year : Int) : daysBeforeYear (year + 1) = daysBeforeYear year + yearLength year := by
  simp only [daysBeforeYear, yearLength, isLeapYear]
  by_cases h4 : year % 4 = 0 <;> by_cases h100 : year % 100 = 0 <;> by_cases h400 : year % 400 = 0 <;>
    simp [h4, h100, h400] <;> omega

/-- An earlier year begins at least its length before a later one. -/
theorem daysBeforeYear_add_le {y z : Int} (h : y < z) : daysBeforeYear y + yearLength y ≤ daysBeforeYear z := by
  rw [← daysBeforeYear_succ]
  simp only [daysBeforeYear]
  omega

/-- A day falls in the year found for it. -/
theorem yearOfDays_spec (n : Int) : daysBeforeYear (yearOfDays n) ≤ n ∧ n < daysBeforeYear (yearOfDays n + 1) := by
  have hfloor : 146097 * (400 * n / 146097) ≤ 400 * n ∧ 400 * n < 146097 * (400 * n / 146097) + 146097 := by omega
  unfold yearOfDays
  dsimp only
  generalize 400 * n / 146097 = y at hfloor ⊢
  split
  · next h =>
    rw [Int.sub_add_cancel]
    simp only [daysBeforeYear] at *
    omega
  split
  · next h h' =>
    simp only [daysBeforeYear] at *
    omega
  · next h h' => exact ⟨by omega, by omega⟩

/-! ## Months -/

/-- The months make up the year. -/
theorem sum_monthLengths (year : Int) : (monthLengths year).sum = yearLength year := by
  unfold monthLengths yearLength
  cases isLeapYear year <;> rfl

/-- The days before a month, as a sum. -/
theorem daysBeforeMonth_eq (year : Int) (month : Nat) :
    daysBeforeMonth year month = ((monthLengths year).take (month - 1)).sum := by
  rw [daysBeforeMonth, List.sum_eq_foldl]

/-- Passing over months finds the one that a day falls in, and the day in it. -/
theorem monthAndDay_spec (month days : Nat) (lengths : List Nat) (h : days < lengths.sum) :
    ∃ k length, lengths[k]? = some length ∧ (monthAndDay month days lengths).1 = month + k ∧
      1 ≤ (monthAndDay month days lengths).2 ∧ (monthAndDay month days lengths).2 ≤ length ∧
      (lengths.take k).sum + ((monthAndDay month days lengths).2 - 1) = days := by
  induction lengths generalizing month days with
  | nil => simp at h
  | cons l r ih =>
    rw [List.sum_cons] at h
    unfold monthAndDay
    split
    · next hlt => exact ⟨0, l, rfl, rfl, Nat.le_add_left 1 days, hlt, by simp⟩
    · next hlt =>
      obtain ⟨k, length, hget, hmonth, hpos, hle, hsum⟩ := ih (month + 1) (days - l) (by omega)
      refine ⟨k + 1, length, by simpa using hget, by omega, hpos, hle, ?_⟩
      rw [List.take_succ_cons, List.sum_cons]
      omega

/-- The months of a year follow each other, the last one ends with the year, and none has more than thirty-one days. -/
theorem monthLengths_facts (leap : Bool) :
    let lengths := [31, if leap then 29 else 28, 31, 30, 31, 30, 31, 31, 30, 31, 30, 31]
    let length := fun m => (lengths[m - 1]?).getD 0
    let before := fun m => (lengths.take (m - 1)).sum
    (∀ m < 13, ∀ n < 13, m < n → 1 ≤ m → before m + length m ≤ before n) ∧
      (∀ m < 13, 1 ≤ m → before m + length m ≤ if leap then 366 else 365) ∧ ∀ m < 13, length m ≤ 31 := by
  cases leap <;> decide

/-- No month has more than thirty-one days. -/
theorem monthLength_le (year : Int) {m : Nat} (h : m ≤ 12) : monthLength year m ≤ 31 :=
  (monthLengths_facts (isLeapYear year)).2.2 m (by omega)

/-- What it means that a date names a day. -/
theorem isDay_iff (d : Date) :
    d.isDay = true ↔ 1 ≤ d.month ∧ d.month ≤ 12 ∧ 1 ≤ d.day ∧ d.day ≤ monthLength d.year d.month := by
  simp [isDay, and_assoc]

/-- The date at a place of a year is a day of the calendar at that place. -/
theorem ofDayOfYear_spec (year : Int) {days : Nat} (h : days < yearLength year) :
    (ofDayOfYear year days).isDay = true ∧ (ofDayOfYear year days).dayOfYear = days := by
  obtain ⟨k, length, hget, hmonth, hpos, hle, hsum⟩ :=
    monthAndDay_spec 1 days (monthLengths year) (by rw [sum_monthLengths]; exact h)
  have hk : k < 12 := (List.getElem?_eq_some_iff.1 hget).1
  have hindex : (monthAndDay 1 days (monthLengths year)).1 - 1 = k := by omega
  have hlength : monthLength year (monthAndDay 1 days (monthLengths year)).1 = length := by
    rw [monthLength, hindex, hget, Option.getD_some]
  constructor
  · rw [isDay_iff]
    simp only [ofDayOfYear, hlength]
    omega
  · simp only [dayOfYear, ofDayOfYear, daysBeforeMonth_eq, hindex]
    exact hsum

/-- An earlier month of a year begins at least its length before a later one. -/
theorem daysBeforeMonth_add_le (year : Int) {m n : Nat} (pos : 1 ≤ m) (h : m < n) (hn : n ≤ 12) :
    daysBeforeMonth year m + monthLength year m ≤ daysBeforeMonth year n := by
  rw [daysBeforeMonth_eq, daysBeforeMonth_eq]
  exact (monthLengths_facts (isLeapYear year)).1 m (by omega) n (by omega) h pos

/-- A day lies in its year. -/
theorem dayOfYear_lt {d : Date} (h : d.isDay = true) : d.dayOfYear < yearLength d.year := by
  obtain ⟨hm1, hm2, hd1, hd2⟩ := (isDay_iff d).1 h
  have hle : daysBeforeMonth d.year d.month + monthLength d.year d.month ≤ yearLength d.year := by
    rw [daysBeforeMonth_eq]
    exact (monthLengths_facts (isLeapYear d.year)).2.1 d.month (by omega) hm1
  unfold dayOfYear
  omega

/-- Day numbers have dates. -/
theorem isDay_ofDayNumber (n : Int) : (ofDayNumber n).isDay = true := by
  obtain ⟨hle, hlt⟩ := yearOfDays_spec (n + epochDays)
  rw [daysBeforeYear_succ] at hlt
  exact (ofDayOfYear_spec _ (by omega)).1

/-- The date of a day number has that number. -/
theorem dayNumber_ofDayNumber (n : Int) : (ofDayNumber n).dayNumber = n := by
  obtain ⟨hle, hlt⟩ := yearOfDays_spec (n + epochDays)
  rw [daysBeforeYear_succ] at hlt
  have hyear : (ofDayNumber n).year = yearOfDays (n + epochDays) := rfl
  have hday : (ofDayNumber n).dayOfYear = (n + epochDays - daysBeforeYear (yearOfDays (n + epochDays))).toNat :=
    (ofDayOfYear_spec _ (by omega)).2
  simp only [dayNumber, hyear, hday]
  omega

/-! ## The order of days -/

/-- A date before another: an earlier year, or in one year an earlier month, or in one month an earlier day. -/
def Before (d e : Date) : Prop :=
  d.year < e.year ∨ d.year = e.year ∧ (d.month < e.month ∨ d.month = e.month ∧ d.day < e.day)

/-- A date before another names an earlier day. -/
theorem dayNumber_lt_of_before {d e : Date} (hd : d.isDay = true) (he : e.isDay = true) (h : d.Before e) :
    d.dayNumber < e.dayNumber := by
  have hlast := dayOfYear_lt hd
  obtain ⟨hm1, hm2, hd1, hd2⟩ := (isDay_iff d).1 hd
  obtain ⟨km1, km2, kd1, kd2⟩ := (isDay_iff e).1 he
  unfold dayNumber
  rcases h with hyear | ⟨hyear, hmonth | ⟨hmonth, hday⟩⟩
  · have := daysBeforeYear_add_le hyear
    omega
  · have := daysBeforeMonth_add_le e.year hm1 hmonth km2
    rw [hyear] at hd2 ⊢
    simp only [dayOfYear, hyear]
    omega
  · simp only [dayOfYear, hyear, hmonth]
    omega

/-- Of two dates one is before the other, unless they are the same. -/
theorem before_or_eq_or_before (d e : Date) : d.Before e ∨ d = e ∨ e.Before d := by
  obtain ⟨y, m, n⟩ := d
  obtain ⟨z, l, k⟩ := e
  simp only [Before, Date.mk.injEq]
  omega

/-- Days are ordered as their dates are. -/
theorem dayNumber_lt_iff {d e : Date} (hd : d.isDay = true) (he : e.isDay = true) :
    d.dayNumber < e.dayNumber ↔ d.Before e := by
  constructor
  · intro h
    rcases before_or_eq_or_before d e with hlt | rfl | hgt
    · exact hlt
    · exact absurd h (Int.lt_irrefl _)
    · exact absurd (dayNumber_lt_of_before he hd hgt) (Int.not_lt.2 (Int.le_of_lt h))
  · exact dayNumber_lt_of_before hd he

/-- Dates of one day are the same. -/
theorem eq_of_dayNumber_eq {d e : Date} (hd : d.isDay = true) (he : e.isDay = true) (h : d.dayNumber = e.dayNumber) :
    d = e := by
  rcases before_or_eq_or_before d e with hlt | heq | hgt
  · have := dayNumber_lt_of_before hd he hlt
    omega
  · exact heq
  · have := dayNumber_lt_of_before he hd hgt
    omega

/-- Dates are the same when their days are. -/
theorem eq_iff_dayNumber_eq {d e : Date} (hd : d.isDay = true) (he : e.isDay = true) :
    d = e ↔ d.dayNumber = e.dayNumber :=
  ⟨congrArg dayNumber, eq_of_dayNumber_eq hd he⟩

/-- A day lies before a year when its date does. -/
theorem year_lt_iff {d : Date} (hd : d.isDay = true) {year : Int} :
    d.year < year ↔ d.dayNumber < daysBeforeYear year - epochDays := by
  have hlast := dayOfYear_lt hd
  unfold dayNumber
  constructor
  · intro h
    have hbegins := daysBeforeYear_add_le h
    omega
  · intro h
    apply Int.not_le.1
    intro hle
    rcases Int.lt_or_eq_of_le hle with hlater | rfl
    · have hbegins := daysBeforeYear_add_le hlater
      omega
    · omega

end SnapshotLedger.Date

/-! ## What clocks show -/

namespace SnapshotLedger.ClockReading

/-- A reading that a clock can show. -/
structure Proper (r : ClockReading) : Prop where
  date : r.date.isDay = true
  hour : r.hour < 24
  minute : r.minute < 60
  second : r.second < 60
  nanosecond : r.nanosecond < 1000000000

/-- Clocks show proper readings. -/
theorem ofNanos_spec (n : Int) : (ofNanos n).Proper := by
  refine ⟨Date.isDay_ofDayNumber _, ?_, ?_, ?_, ?_⟩ <;>
    simp only [ofNanos, nanosPerSecond, secondsPerDay] <;> omega

/-- What a clock shows after some nanoseconds stands for so many. -/
theorem nanos_ofNanos (n : Int) : (ofNanos n).nanos = n := by
  have hday : (ofNanos n).date.dayNumber = n / nanosPerSecond / secondsPerDay := Date.dayNumber_ofDayNumber _
  simp only [nanos, seconds, hday]
  simp only [ofNanos, nanosPerSecond, secondsPerDay]
  omega

/-- The whole microseconds of a reading. -/
theorem nanos_div (r : ClockReading) : r.nanos / 1000 = r.seconds * 1000000 + (r.nanosecond / 1000 : Nat) := by
  simp only [nanos, nanosPerSecond]
  omega

end SnapshotLedger.ClockReading
