import SnapshotLedger.Error
import SnapshotLedger.Proofs.Store.Invariant

/-!
# Which writes a table takes

The store refuses identities with a blank part, and the table behind it refuses rows with an empty one. The two
are not the same: a text that opens with a NUL is empty to the table, which measures up to the first NUL, and is
not blank. This is the only way in which the table refuses the row of an identity that may be stored
(`write_accepts_iff`). The other rules of the table never come to that: stored map indexes are no less than
asked for, and a write takes away the row that it would collide with.
-/

namespace SnapshotLedger

/-- The text opens with a NUL. -/
def Text.OpensWithNul (s : String) : Prop := s.toList.head? = some '\x00'

namespace Run

/-- The text of a part. -/
def textOf (i : Run) : Part → String
  | .workflow => i.workflow
  | .task => i.task
  | .runKey => i.runKey

/-- What the table asks of a part. -/
def Part.check : Part → Store.RowCheck
  | workflow => .workflow
  | task => .task
  | runKey => .runKey

/-- No part of an identity that may be stored is found to be blank. -/
theorem blankPart?_of_validate {i : Run} (h : i.validate = .ok ()) : i.blankPart? = none := by
  unfold validate at h
  split at h
  · cases h
  · assumption

/-- No part of an identity that may be stored is blank. -/
theorem not_isBlank_of_validate {i : Run} (h : i.validate = .ok ()) (part : Part) :
    Text.isBlank (i.textOf part) = false := by
  have hnone := blankPart?_of_validate h
  unfold blankPart? at hnone
  split at hnone
  · cases hnone
  next hworkflow =>
  split at hnone
  · cases hnone
  next htask =>
  split at hnone
  · cases hnone
  next hrunKey =>
  cases part with
  | workflow => exact Bool.eq_false_iff.2 hworkflow
  | task => exact Bool.eq_false_iff.2 htask
  | runKey => exact Bool.eq_false_iff.2 hrunKey

/-- No stored map index is less than that of runs without one. -/
theorem unmapped_le_storedIndex (i : Run) : unmapped ≤ i.storedIndex := by
  unfold storedIndex
  split
  · unfold unmapped
    omega
  · exact Int.le_refl _

end Run

namespace Store

/-- A text that is not blank counts as empty exactly when it opens with a NUL. -/
theorem hasLength_iff {s : String} (h : Text.isBlank s = false) : hasLength s = true ↔ ¬Text.OpensWithNul s := by
  unfold hasLength Text.OpensWithNul
  cases hs : s.toList with
  | nil =>
    rw [Text.isBlank, hs] at h
    cases h
  | cons c cs => simp

/-- The row of an identity that may be stored meets all conditions, or one of the parts opens with a NUL and is
blamed. -/
theorem failedCheck?_rowOf (s : Snapshot) (createdAt : String) (h : s.identity.validate = .ok ()) :
    failedCheck? (rowOf s createdAt) = none ∧ (∀ part, ¬Text.OpensWithNul (s.identity.textOf part)) ∨
      ∃ part, Text.OpensWithNul (s.identity.textOf part) ∧ failedCheck? (rowOf s createdAt) = some part.check := by
  have hempty : ∀ part, (!hasLength (s.identity.textOf part)) = true ↔ Text.OpensWithNul (s.identity.textOf part) := by
    intro part
    rw [Bool.not_eq_true', ← Bool.not_eq_true, hasLength_iff (Run.not_isBlank_of_validate h part), Classical.not_not]
  have hindex : ¬s.identity.storedIndex < Run.unmapped := Int.not_lt.2 s.identity.unmapped_le_storedIndex
  unfold failedCheck?
  split
  · next hworkflow => exact .inr ⟨.workflow, (hempty .workflow).1 hworkflow, rfl⟩
  next hworkflow =>
  split
  · next htask => exact .inr ⟨.task, (hempty .task).1 htask, rfl⟩
  next htask =>
  split
  · next hrunKey => exact .inr ⟨.runKey, (hempty .runKey).1 hrunKey, rfl⟩
  next hrunKey =>
  rw [rowOf, if_neg hindex]
  refine .inl ⟨rfl, fun part => ?_⟩
  rw [← hempty part]
  cases part with
  | workflow => exact hworkflow
  | task => exact htask
  | runKey => exact hrunKey

variable {t : Table} {identity : Run}

/-- A row that meets all conditions, and whose identifier is new, is taken in the place of the row of its identity. -/
theorem Table.exists_insert_erase {r : Row} (hof : r.isOf identity = true) (hcheck : failedCheck? r = none)
    (hfresh : ∀ s ∈ t.rows, s.id ≠ r.id) : ∃ t', (t.erase (·.isOf identity)).insert r = .ok t' := by
  have hidentity : ¬(t.erase (·.isOf identity)).rows.any r.sameIdentity = true := by
    rw [List.any_eq_true]
    rintro ⟨s, hs, hsame⟩
    obtain ⟨hw, ht, hk, hm⟩ := Row.isOf_iff.1 hof
    obtain ⟨hw', ht', hk', hm'⟩ := Row.sameIdentity_iff.1 hsame
    have hsof : s.isOf identity = true :=
      Row.isOf_iff.2 ⟨hw'.symm.trans hw, ht'.symm.trans ht, hk'.symm.trans hk, hm'.symm.trans hm⟩
    have hkept := (List.mem_filter.1 hs).2
    simp only [hsof, Bool.not_true, Bool.false_eq_true] at hkept
  have hid : ¬(t.erase (·.isOf identity)).rows.any (fun s => decide (s.id = r.id)) = true := by
    rw [List.any_eq_true]
    rintro ⟨s, hs, hsame⟩
    exact hfresh s (List.mem_filter.1 hs).1 (of_decide_eq_true hsame)
  refine ⟨⟨(t.erase (·.isOf identity)).rows ++ [{ r with seq := t.next }], t.next + 1⟩, ?_⟩
  rw [insert, hcheck]
  dsimp only
  rw [if_neg hidentity, if_neg hid]
  rfl

/-- A write of an identity that may be stored puts its row into the table, or one of the parts opens with a NUL
and is blamed. -/
theorem write_accepted_or_refused {id : SnapshotId} (hvalid : identity.validate = .ok ()) {createdAt : Timestamp}
    (hera : createdAt.InEra) (hfresh : ∀ r ∈ t.rows, r.id ≠ id.text) (fields : Fields) (podSpec : Option Fields) :
    (∃ answer, write ⟨some t⟩ id identity fields podSpec createdAt = .ok answer) ∧
        (∀ part, ¬Text.OpensWithNul (identity.textOf part)) ∨
      ∃ part, Text.OpensWithNul (identity.textOf part) ∧
        write ⟨some t⟩ id identity fields podSpec createdAt = .error (.table .inserting (.checkFailed part.check)) := by
  have hstored := Timestamp.stored?_eq hera
  have hblank := Run.blankPart?_of_validate hvalid
  have hrow := failedCheck?_rowOf ⟨id, identity, fields, podSpec, createdAt.toUtc⟩
    (String.ofList (Timestamp.storedChars createdAt.utcClock)) hvalid
  rcases hrow with ⟨hcheck, hnone⟩ | ⟨part, hopens, hcheck⟩
  · have hof : (rowOf ⟨id, identity, fields, podSpec, createdAt.toUtc⟩
        (String.ofList (Timestamp.storedChars createdAt.utcClock))).isOf identity = true :=
          Row.isOf_iff.2 ⟨rfl, rfl, rfl, rfl⟩
    obtain ⟨t', hinsert⟩ := Table.exists_insert_erase hof hcheck hfresh
    refine .inl ⟨⟨(⟨id, identity, fields, podSpec, createdAt.toUtc⟩, ⟨some t'⟩), ?_⟩, hnone⟩
    rw [write, hblank, hstored]
    simp only [tableFor, bind, Except.bind, hinsert]
  · refine .inr ⟨part, hopens, ?_⟩
    rw [write, hblank, hstored]
    simp only [tableFor, bind, Except.bind, Table.insert, hcheck]

/-- A store takes the snapshot of an identity that may be stored exactly when none of its parts opens with a
NUL. Into whatever table, under an identifier that no row has, and at every instant in a year of four digits,
nothing else keeps such a write from succeeding; and when it fails, the table has refused the row for a part
that opens with a NUL. -/
theorem write_accepts_iff {t : Table} {id : SnapshotId} {identity : Run} (hvalid : identity.validate = .ok ())
    {createdAt : Timestamp} (hera : createdAt.InEra) (hfresh : ∀ r ∈ t.rows, r.id ≠ id.text) (fields : Fields)
    (podSpec : Option Fields) :
    ((∃ answer, write ⟨some t⟩ id identity fields podSpec createdAt = .ok answer) ↔
        ∀ part, ¬Text.OpensWithNul (identity.textOf part)) ∧
      ∀ e, write ⟨some t⟩ id identity fields podSpec createdAt = .error e →
        ∃ part, Text.OpensWithNul (identity.textOf part) ∧ e = .table .inserting (.checkFailed part.check) := by
  rcases write_accepted_or_refused hvalid hera hfresh fields podSpec with
    ⟨⟨answer, hok⟩, hnone⟩ | ⟨part, hopens, herror⟩
  · rw [hok]
    exact ⟨⟨fun _ => hnone, fun _ => ⟨answer, rfl⟩⟩, nofun⟩
  · rw [herror]
    refine ⟨⟨nofun, fun hnone => absurd hopens (hnone part)⟩, fun e he => ⟨part, hopens, ?_⟩⟩
    exact (Except.error.inj he).symm

/-- An identity with a NUL and with blanks where they do no harm. -/
def innerNul : Run := ⟨"w\x00", "ü", " r", some 0⟩

/-- A snapshot of such an identity is taken in the place of the one before. -/
theorem write_accepts_iff_of_inner_nul : ∃ reported t answer,
    write ⟨some {}⟩ ⟨1⟩ innerNul [] none ⟨0, 0⟩ = .ok (reported, ⟨some t⟩) ∧ (t.find? innerNul).isSome = true ∧
      write ⟨some t⟩ ⟨2⟩ innerNul [] none ⟨0, 0⟩ = .ok answer := by
  obtain ⟨reported, t, hbefore, hfound, hfresh⟩ :
      ∃ reported t, write ⟨some {}⟩ ⟨1⟩ innerNul [] none ⟨0, 0⟩ = .ok (reported, ⟨some t⟩) ∧
        (t.find? innerNul).isSome = true ∧ ∀ r ∈ t.rows, r.id ≠ (⟨2⟩ : SnapshotId).text :=
    ⟨_, _, rfl, rfl, by decide +kernel⟩
  have hvalid : innerNul.validate = .ok () := rfl
  have hera : (⟨0, 0⟩ : Timestamp).InEra := by decide
  have hinner : ∀ part, ¬Text.OpensWithNul (innerNul.textOf part) := by
    intro part
    cases part <;> simp [innerNul, Run.textOf, Text.OpensWithNul]
  obtain ⟨answer, hanswer⟩ := (write_accepts_iff hvalid hera hfresh [] none).1.2 hinner
  exact ⟨reported, t, answer, hbefore, hfound, hanswer⟩

/-- An empty store refuses the snapshot of an identity that may be stored, when its workflow opens with a NUL. -/
theorem write_refuses_opening_nul : (⟨"\x00w", "t", "r", none⟩ : Run).validate = .ok () ∧ (⟨0, 0⟩ : Timestamp).InEra ∧
    write blank.migrate ⟨1⟩ ⟨"\x00w", "t", "r", none⟩ [] none ⟨0, 0⟩ =
      .error (.table .inserting (.checkFailed .workflow)) :=
  ⟨rfl, by decide, rfl⟩

end Store

end SnapshotLedger
