import SnapshotLedger.Proofs.Store.Refinement

/-!
# What a write reports and what is found then

A write answers with the snapshot as it was given, and a row is read as what its texts say. Fields whose values
come back from JSON equal to themselves come back as they are (`Fields.reread_eq`), so that the snapshot found
after a write differs from the one reported in no more than the time: it is cut to the microsecond, and the two
are the same exactly when there was nothing to cut (`found_after_write`).
-/

namespace SnapshotLedger

namespace Rendered

mutual

/-- Only the value itself is equal to a value without binary numbers. -/
theorem eq_of_same : (v : Rendered) → v.Exact → ∀ u, same u v = true → u = v
  | null, _, u, h | bool _, _, u, h | integer _, _, u, h | text _, _, u, h => by cases u <;> simp_all [same]
  | float _, hexact, _, _ => by simp only [Exact] at hexact
  | sequence vs, hexact, u, h => by
    simp only [Exact] at hexact
    cases u <;> simp only [same, Bool.false_eq_true] at h
    rw [eq_of_sameItems vs hexact _ h]
  | mapping es, hexact, u, h => by
    simp only [Exact] at hexact
    cases u <;> simp only [same, Bool.false_eq_true] at h
    rw [eq_of_sameEntries es hexact _ h]
  | object _ _ es, hexact, u, h => by
    simp only [Exact] at hexact
    cases u <;> simp only [same, Bool.false_eq_true, Bool.and_eq_true, beq_iff_eq] at h
    obtain ⟨⟨rfl, rfl⟩, hentries⟩ := h
    rw [eq_of_sameEntries es hexact _ hentries]

/-- Only the items themselves are equal to items without binary numbers. -/
theorem eq_of_sameItems : (vs : List Rendered) → ExactItems vs → ∀ us, sameItems us vs = true → us = vs
  | [], _, us, h => by cases us <;> simp_all [sameItems]
  | v :: vs, hexact, us, h => by
    cases us <;> simp only [sameItems, Bool.false_eq_true, Bool.and_eq_true] at h
    rw [eq_of_same v hexact.1 _ h.1, eq_of_sameItems vs hexact.2 _ h.2]

/-- Only the entries themselves are equal to entries without binary numbers. -/
theorem eq_of_sameEntries : (es : List (String × Rendered)) → ExactEntries es → ∀ fs, sameEntries fs es = true → fs = es
  | [], _, fs, h => by cases fs <;> simp_all [sameEntries]
  | (_, v) :: es, hexact, fs, h => by
    cases fs with
    | nil => simp only [sameEntries, Bool.false_eq_true] at h
    | cons f fs =>
      simp only [sameEntries, Bool.and_eq_true, beq_iff_eq] at h
      obtain ⟨⟨hkey, hvalue⟩, hentries⟩ := h
      rw [eq_of_sameEntries es hexact.2 _ hentries, ← eq_of_same v hexact.1 _ hvalue, ← hkey]

end

end Rendered

namespace Fields

/-- The value of each field comes back from JSON equal to itself. -/
def ComeBack (fields : Fields) : Prop := ∀ e ∈ fields, (Rendered.ofJson e.2.toJson).same e.2 = true

/-- Fields that come back are read as they are. -/
theorem reread_eq {fields : Fields} (h : fields.Storable) (hback : fields.ComeBack) : fields.reread = fields := by
  have hentries : Rendered.entriesOfJson (Rendered.entriesToJson fields) = fields := by
    have hexact := h.exact
    clear h
    induction fields with
    | nil => rfl
    | cons e fields ih =>
      obtain ⟨hvalue, hrest⟩ := List.forall_mem_cons.1 hback
      rw [Rendered.entriesToJson, Rendered.entriesOfJson, Rendered.eq_of_same e.2 hexact.1 _ hvalue, ih hrest hexact.2]
  rw [reread, hentries, Entries.ofList_of_ordered h.ordered]

end Fields

namespace Store

open RefinementAux

/-- After a write that does not fail, what is read from its row is found. -/
theorem get?_after_write {t : Table} {w : Writing} (hw : w.Proper) {reported : Snapshot} {after : Store}
    (h : write ⟨some t⟩ w.id w.identity w.fields w.podSpec w.createdAt = .ok (reported, after)) :
    reported = ⟨w.id, w.identity, w.fields, w.podSpec, w.createdAt.toUtc⟩ ∧
      after.get? w.identity = .ok (some w.readBack) := by
  obtain ⟨rfl, u, t', stored, htable, rfl, hstored, hinsert⟩ := write_eq_ok h
  cases htable
  have hfind := Table.find?_insert_erase (i := w.identity) (Row.isOf_iff.2 ⟨rfl, rfl, rfl, rfl⟩) hinsert
  have hread := snapshotOf_eq_readBack hw ⟨stored, t.next, hstored, rfl⟩
  refine ⟨rfl, ?_⟩
  simp only [get?, tableFor, bind, Except.bind, hfind, hread]
  rfl

/-- What a write reports is found under its identity, except that the time is cut to the microsecond. After any
write that does not fail, into whatever table, of fields that come back from JSON equal to themselves, the
snapshot found is the one reported at the instant cut to the microsecond, and it is the one reported exactly
when the instant is a whole number of microseconds. -/
theorem found_after_write {t : Table} {w : Writing} (hw : w.Proper) (hfields : w.fields.ComeBack)
    (hpodSpec : ∀ podSpec, w.podSpec = some podSpec → podSpec.ComeBack) {reported : Snapshot} {after : Store}
    (h : write ⟨some t⟩ w.id w.identity w.fields w.podSpec w.createdAt = .ok (reported, after)) :
    ∃ found, after.get? w.identity = .ok (some found) ∧
      found = { reported with createdAt := reported.createdAt.floored } ∧
      (found = reported ↔ w.createdAt.nanos % 1000 = 0) := by
  obtain ⟨rfl, hget⟩ := get?_after_write hw h
  have hback : w.readBack = ⟨w.id, w.identity, w.fields, w.podSpec, w.createdAt.floored⟩ := by
    rw [Writing.readBack, Fields.reread_eq hw.fields hfields]
    cases hpod : w.podSpec with
    | none => rfl
    | some podSpec => rw [Option.map_some, Fields.reread_eq (hw.podSpec podSpec hpod) (hpodSpec podSpec hpod)]
  refine ⟨w.readBack, hget, ?_, ?_⟩
  · rw [hback]
    rfl
  · rw [hback]
    simp only [Snapshot.mk.injEq, true_and, Timestamp.floored, Timestamp.toUtc, Timestamp.mk.injEq, and_true,
      Timestamp.micros]
    omega

/-- A write of one field at an instant. -/
def fieldAt (nanos : Int) : Writing := ⟨⟨1⟩, ⟨"w", "t", "r", none⟩, [("x", .text "a")], none, ⟨nanos, 0⟩⟩

/-- Such a write is proper, and its field comes back from JSON. -/
theorem fieldAt_spec (nanos : Int) (h : (⟨nanos, 0⟩ : Timestamp).InEra) :
    (fieldAt nanos).Proper ∧ (fieldAt nanos).fields.ComeBack := by
  have hstorable : Fields.Storable [("x", .text "a")] :=
    ⟨List.pairwise_singleton _ _, ⟨trivial, trivial⟩, ⟨trivial, trivial⟩, by decide⟩
  refine ⟨⟨by simp [fieldAt], hstorable, by simp [fieldAt], h⟩, ?_⟩
  intro e he
  rw [List.mem_singleton.1 he]
  rfl

/-- What is written at a whole number of microseconds is found as it was reported. -/
theorem found_after_write_of_whole_microsecond :
    ∃ reported after, write ⟨some {}⟩ ⟨1⟩ ⟨"w", "t", "r", none⟩ [("x", .text "a")] none
      ⟨1704067200123456000, 0⟩ = .ok (reported, after) ∧
    after.get? ⟨"w", "t", "r", none⟩ = .ok (some reported) := by
  obtain ⟨reported, after, hwrite⟩ : ∃ reported after, write ⟨some {}⟩ ⟨1⟩ ⟨"w", "t", "r", none⟩ [("x", .text "a")] none
      ⟨1704067200123456000, 0⟩ = .ok (reported, after) := ⟨_, _, rfl⟩
  obtain ⟨hproper, hback⟩ := fieldAt_spec 1704067200123456000 (by decide)
  obtain ⟨found, hget, -, hsame⟩ := found_after_write hproper hback (by simp [fieldAt]) hwrite
  rw [hsame.2 (by decide)] at hget
  exact ⟨reported, after, hwrite, hget⟩

/-- What is written between two microseconds is found at another instant than it was reported. -/
theorem found_after_write_departs :
    ∃ reported after found, write ⟨some {}⟩ ⟨1⟩ ⟨"w", "t", "r", none⟩ [("x", .text "a")] none
      ⟨1704067200123456789, 0⟩ = .ok (reported, after) ∧ (fieldAt 1704067200123456789).Proper ∧
    (fieldAt 1704067200123456789).fields.ComeBack ∧ after.get? ⟨"w", "t", "r", none⟩ = .ok (some found) ∧
    reported.createdAt.nanos = 1704067200123456789 ∧ found.createdAt.nanos = 1704067200123456000 := by
  obtain ⟨reported, after, hwrite⟩ : ∃ reported after, write ⟨some {}⟩ ⟨1⟩ ⟨"w", "t", "r", none⟩ [("x", .text "a")] none
      ⟨1704067200123456789, 0⟩ = .ok (reported, after) := ⟨_, _, rfl⟩
  obtain ⟨hproper, hback⟩ := fieldAt_spec 1704067200123456789 (by decide)
  obtain ⟨hreported, hget⟩ := get?_after_write hproper hwrite
  refine ⟨reported, after, _, hwrite, hproper, hback, hget, ?_, by decide⟩
  rw [hreported]
  rfl

end Store

end SnapshotLedger
