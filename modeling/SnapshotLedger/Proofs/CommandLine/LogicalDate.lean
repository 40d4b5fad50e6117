import SnapshotLedger.CommandLine.Execution
import SnapshotLedger.Proofs.Calendar.Accepted
import SnapshotLedger.Proofs.Text.Blank

/-!
# Runs given by a logical date

A logical date that is accepted has a run key if its year in universal time has four digits. If it is carried
back before the year 0, it is refused as an argument. If it is carried over into the year 10000, its instant is
beyond the calendar, and that is no refusal of the argument. Main statements: which of these answers an accepted
text has, by its date, its time and its offset (`CommandLine.RunSelector.logical_date_answers`), and a text of
the last kind (`CommandLine.RunSelector.logical_date_beyond_calendar`).
-/

namespace SnapshotLedger

namespace Run

/-- A run key of a logical date is not blank. -/
theorem not_isBlank_logicalRunKey {t : Timestamp} {key : String} (h : logicalRunKey t = .ok key) :
    Text.isBlank key = false := by
  have hkey : t.rfc3339 = .ok key := mapError_eq_ok h
  unfold Timestamp.rfc3339 at hkey
  dsimp only at hkey
  split at hkey
  · cases hkey
  split at hkey
  · cases hkey
  · cases hkey
    apply Text.isBlank_eq_false (c := 'Z')
    · simp
    · decide

/-- An instant in a year before the year 0 is refused, and one in a year of five digits is beyond the calendar. -/
theorem logicalRunKey_of_not_inEra {t : Timestamp} :
    (t.utcClock.date.year = -1 → logicalRunKey t = .error (.validation .unwritableYear)) ∧
      (t.utcClock.date.year = 10000 → logicalRunKey t = .error .beyondCalendar) := by
  constructor
  · intro hyear
    simp [logicalRunKey, runKeyOf, Timestamp.rfc3339, Timestamp.hasUtcDate, Timestamp.furthestYear, hyear,
      Except.mapError, LedgerError.ofUtcFault]
  · intro hyear
    simp [logicalRunKey, runKeyOf, Timestamp.rfc3339, Timestamp.hasUtcDate, Timestamp.furthestYear, hyear,
      Except.mapError, LedgerError.ofUtcFault]

end Run

namespace CommandLine.RunSelector

/-- A logical date that has a run key identifies a run, if the workflow and the task are not blank. -/
theorem identity_eq_ok {text : String} {t : Timestamp} (h : Timestamp.readRfc3339 text = .ok t) {key : String}
    (hkey : Run.logicalRunKey t = .ok key) {workflow task : String} (hworkflow : Text.isBlank workflow = false)
    (htask : Text.isBlank task = false) (index : Option Nat) :
    identity ⟨workflow, task, .logicalDate text, index⟩ = .ok ⟨workflow, task, key, index⟩ := by
  have hvalid : Run.validate ⟨workflow, task, key, index⟩ = .ok () := by
    simp [Run.validate, Run.blankPart?, hworkflow, htask, Run.not_isBlank_logicalRunKey hkey]
  simp [identity, readRunKey, h, hkey, hvalid, Except.mapError, bind, Except.bind]

/-- A logical date without a run key identifies no run, whatever the workflow and the task are. -/
theorem identity_eq_error {text : String} {t : Timestamp} (h : Timestamp.readRfc3339 text = .ok t) {e : LedgerError}
    (hkey : Run.logicalRunKey t = .error e) (workflow task : String) (index : Option Nat) :
    identity ⟨workflow, task, .logicalDate text, index⟩ = .error (.run e) := by
  simp [identity, readRunKey, h, hkey, Except.mapError, bind, Except.bind]

/-- What becomes of a logical date that is accepted. Its year in universal time has four digits, unless it is
carried over an end of these years. If it has, the date has a run key and with it identifies a run. If it is
carried back before the year 0, it is refused as an argument. If it is carried over into the year 10000, its
instant is beyond the calendar, and it is not refused as an argument. -/
theorem logical_date_answers {text : String} {t : Timestamp} (h : Timestamp.readRfc3339 text = .ok t) :
    (t.InEra ↔ ¬t.CarriesBack ∧ ¬t.CarriesOver) ∧
    (t.InEra → ∃ key, Run.logicalRunKey t = .ok key ∧ ∀ {workflow task : String}, Text.isBlank workflow = false →
      Text.isBlank task = false →
      ∀ index, identity ⟨workflow, task, .logicalDate text, index⟩ = .ok ⟨workflow, task, key, index⟩) ∧
    (t.CarriesBack → t.utcClock.date.year = -1 ∧ Run.logicalRunKey t = .error (.validation .unwritableYear) ∧
      ∀ workflow task index, identity ⟨workflow, task, .logicalDate text, index⟩ =
        .error (.run (.validation .unwritableYear))) ∧
    (t.CarriesOver → t.utcClock.date.year = 10000 ∧ Run.logicalRunKey t = .error .beyondCalendar ∧
      ∀ workflow task index, identity ⟨workflow, task, .logicalDate text, index⟩ = .error (.run .beyondCalendar)) := by
  obtain ⟨hera, hback, hover⟩ := (Timestamp.accepted_of_readRfc3339 h).utc_year
  refine ⟨hera, ?_, ?_, ?_⟩
  · intro hin
    obtain ⟨key, hkey, -⟩ := Run.readUniversal_of_logicalRunKey hin
    exact ⟨key, hkey, fun hworkflow htask => identity_eq_ok h hkey hworkflow htask⟩
  · intro hcarried
    have hkey := Run.logicalRunKey_of_not_inEra.1 (hback hcarried)
    exact ⟨hback hcarried, hkey, identity_eq_error h hkey⟩
  · intro hcarried
    have hkey := Run.logicalRunKey_of_not_inEra.2 (hover hcarried)
    exact ⟨hover hcarried, hkey, identity_eq_error h hkey⟩

/-- The last half second of the year 9999 and the first of the next one on a clock behind universal time, and
the last minute before the year 0 on one ahead of it. -/
theorem logical_date_answers_at_the_ends :
    (∃ key, identity ⟨"w", "t", .logicalDate "9999-12-31T23:29:59.5-00:30", none⟩ = .ok ⟨"w", "t", key, none⟩) ∧
      identity ⟨"w", "t", .logicalDate "9999-12-31T23:30:00-00:30", none⟩ = .error (.run .beyondCalendar) ∧
      identity ⟨"w", "t", .logicalDate "0000-01-01T00:30:00+00:31", none⟩ =
        .error (.run (.validation .unwritableYear)) := by
  have hin : Timestamp.readRfc3339 "9999-12-31T23:29:59.5-00:30" =
      .ok (.ofClock ⟨⟨9999, 12, 31⟩, 23, 29, 59, 500000000⟩ (-1800)) := by decide +kernel
  have hover : Timestamp.readRfc3339 "9999-12-31T23:30:00-00:30" =
      .ok (.ofClock ⟨⟨9999, 12, 31⟩, 23, 30, 0, 0⟩ (-1800)) := by
    decide +kernel
  have hback : Timestamp.readRfc3339 "0000-01-01T00:30:00+00:31" = .ok (.ofClock ⟨⟨0, 1, 1⟩, 0, 30, 0, 0⟩ 1860) := by
    decide +kernel
  refine ⟨?_, ?_, ?_⟩
  · obtain ⟨key, -, hidentity⟩ := (logical_date_answers hin).2.1 (by decide +kernel)
    exact ⟨key, hidentity (by decide) (by decide) none⟩
  · exact ((logical_date_answers hover).2.2.2 (by decide +kernel)).2.2 "w" "t" none
  · exact ((logical_date_answers hback).2.2.1 (by decide +kernel)).2.2 "w" "t" none

/-- A logical date that is accepted and has no run key, and yet is not refused as an argument. -/
theorem logical_date_beyond_calendar :
    ∃ t, Timestamp.readRfc3339 "9999-12-31T23:59:59-01:00" = .ok t ∧ ¬t.InEra ∧
      Run.logicalRunKey t = .error .beyondCalendar ∧
      (∀ fault, Run.logicalRunKey t ≠ .error (.validation fault)) ∧
      identity ⟨"w", "t", .logicalDate "9999-12-31T23:59:59-01:00", none⟩ = .error (.run .beyondCalendar) := by
  have hread : Timestamp.readRfc3339 "9999-12-31T23:59:59-01:00" =
      .ok (.ofClock ⟨⟨9999, 12, 31⟩, 23, 59, 59, 0⟩ (-3600)) := by
    decide +kernel
  have hkey : Run.logicalRunKey (.ofClock ⟨⟨9999, 12, 31⟩, 23, 59, 59, 0⟩ (-3600)) = .error .beyondCalendar :=
    Run.logicalRunKey_of_not_inEra.2 (by decide +kernel)
  refine ⟨_, hread, by decide +kernel, hkey, ?_, identity_eq_error hread hkey "w" "t" none⟩
  intro fault hrefused
  rw [hkey] at hrefused
  cases hrefused

end CommandLine.RunSelector

end SnapshotLedger
