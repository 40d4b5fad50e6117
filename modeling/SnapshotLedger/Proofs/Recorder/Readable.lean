import SnapshotLedger.Proofs.Recorder.Survival
import SnapshotLedger.Proofs.Store.Reading

/-!
# When what is recorded can be read

Whatever the policy hides, redacted fields have the levels of the rendered ones, which are at most two more than
the limit of the recorder (`redactedFields_spec`). The reader of stored texts has a limit of its own, which the
settings know nothing of. So a run that is recorded can be read by all ways to read when its fields have no more
levels than that, and by none otherwise (`readable_iff_shallow_record`). With a limit of at most
`Json.deepest - 2`, as usual, all runs can be read. A limit that is no lower than that of the reader is valid as
well, and then some runs cannot (`exists_withheld`).
-/

namespace SnapshotLedger

/-! ## Redacted fields -/

namespace Redaction.Policy

variable {p : Redaction.Policy} {fields redacted : Fields}

/-- Redaction leaves the levels. -/
theorem nesting_applyTo (h : p.applyTo fields = .ok redacted) :
    (Fields.toJson redacted).nesting = (Fields.toJson fields).nesting := by
  have hshape := Rendered.nesting_shapeEntries redacted
  rw [shape_of_applyTo h, Rendered.nesting_shapeEntries] at hshape
  simp only [Fields.toJson, Json.nesting, hshape]

end Redaction.Policy

namespace Recorder

variable {r : Recorder} {owner : Owner} {fields : Fields}

/-- The redacted fields of an owner whose integers are signed words are written as what they are, and have at
most two levels more than the limit. -/
theorem redactedFields_spec (hsigned : owner.toField.Signed) (h : r.redactedFields owner = .ok fields) :
    fields.Writable ∧ (Fields.toJson fields).nesting ≤ r.settings.depthLimit + 2 := by
  obtain ⟨-, shown, hshown, hredacted⟩ := redactedFields_eq_ok_iff.1 h
  constructor
  · exact writable_applyTo hredacted (Renderer.writable_renderOwner hsigned hshown)
  · have hrenders := Renderer.rendersTo_renderOwner Rendered.admits_true (fun _ _ => trivial) hshown
    have hlevels : Json.nestingMembers (Rendered.entriesToJson shown) ≤ r.settings.depthLimit + 1 :=
      Rendered.nestingMembers_le fun e he => (hrenders e he).shallow
    rw [Redaction.Policy.nesting_applyTo hredacted]
    simp only [Fields.toJson, Json.nesting]
    omega

end Recorder

/-! ## Rows -/

namespace Store

/-- All ways to read come back with the snapshot. -/
structure ReadsBack (s : Store) (found : Snapshot) : Prop where
  alone : s.ShowsIdentity found.identity (some found)
  listed : ∃ shown, s.list found.identity.workflow none none = .ok shown ∧ found ∈ shown

/-- No way to read comes back with the fields of an identity, and the listing of its workflow fails as a whole. -/
structure Withholds (s : Store) (i : Run) : Prop where
  whole : ∃ e, s.get? i = .error e
  fields : ∃ e, s.fields? i = .error e
  listed : ∃ e, s.list i.workflow none none = .error e

namespace ReadableAux

open RefinementAux ReadingAux SurvivalAux

variable {t : Table} {r : Row}

/-- Some fields are read from the text of fields exactly when these are not nested too deeply. -/
theorem exists_fieldsOfText_iff {fields : Fields} (h : fields.Writable) :
    (∃ read, fieldsOfText (fieldsText fields) = .ok read) ↔ (Fields.toJson fields).nesting ≤ Json.deepest := by
  rw [← Json.exists_read_compact_iff h.legible]
  unfold fieldsOfText fieldsText
  constructor
  · rintro ⟨read, hread⟩
    split at hread
    · cases hread
    · next v hv => exact ⟨v, hv⟩
  · rintro ⟨v, hv⟩
    obtain ⟨ms, rfl⟩ := Json.exists_object_of_read hv
    rw [hv]
    exact ⟨_, rfl⟩

/-- A row that can be decoded is shown by all ways to read, when the other rows of its workflow can be decoded
as well. -/
theorem readsBack_of_row {found : Snapshot} (hfind : t.find? found.identity = some r) (hread : snapshotOf r = .ok found)
    (hall : ∀ s ∈ t.rows, s.workflow = found.identity.workflow → ∃ snapshot, snapshotOf s = .ok snapshot) :
    ReadsBack ⟨some t⟩ found where
  alone := showsIdentity_some hfind hread
  listed := by
    obtain ⟨shown, hmade⟩ := exists_mapM_eq_ok fun s (hs : s ∈ t.listing found.identity.workflow none) =>
      hall s (mem_listing_workflow.1 hs).1 (mem_listing_workflow.1 hs).2
    obtain ⟨hrow, hof⟩ := Table.mem_of_find?_eq_some hfind
    have hmem : r ∈ t.listing found.identity.workflow none := mem_listing_workflow.2 ⟨hrow, (Row.isOf_iff.1 hof).1⟩
    obtain ⟨snapshot, hsnapshot, hdecoded⟩ := mem_mapM_of_eq_ok hmade hmem
    rw [hread, Except.ok.injEq] at hdecoded
    exact ⟨shown, list_eq_ok_iff.2 (mapM_eq_ok_iff.1 hmade), hdecoded ▸ hsnapshot⟩

/-- A row whose fields cannot be read fails all ways to read. -/
theorem withholds_of_row {i : Run} (hfind : t.find? i = some r) {fault : ColumnFault}
    (hfault : fieldsOfText r.fields = .error fault) :
    Withholds ⟨some t⟩ i := by
  obtain ⟨rowFault, hundecoded⟩ := snapshotOf_fails hfault
  obtain ⟨hrow, hof⟩ := Table.mem_of_find?_eq_some hfind
  have hmem : r ∈ t.listing i.workflow none := mem_listing_workflow.2 ⟨hrow, (Row.isOf_iff.1 hof).1⟩
  refine ⟨?_, ?_, list_fails_iff_mem_listing.2 ⟨r, hmem, rowFault, hundecoded⟩⟩
  · simp only [get?, tableFor, bind, Except.bind, hfind, hundecoded]
    exact ⟨_, rfl⟩
  · simp only [fields?, column?, tableFor, bind, Except.bind, hfind, Option.bind_some, hfault]
    exact ⟨_, rfl⟩

end ReadableAux

end Store

namespace Recorder

open Store (Table Row)
open Store.RefinementAux Store.ReadingAux Store.SurvivalAux Store.ReadableAux

variable {r : Recorder} {t : Table} {after : Store} {id : SnapshotId} {now : Timestamp} {identity : Run} {owner : Owner}
  {builder : PodSpecSource} {recording : Recording}

/-- Without a pod and without retention, a run that is recorded is one write of its redacted fields. -/
theorem write_of_record (hretention : r.settings.retention ≤ 0) (hbuilder : builder identity = .ok none) {store : Store}
    (h : r.record store id now identity owner builder = .ok (recording, after)) :
    ∃ fields, r.redactedFields owner = .ok fields ∧
      store.write id identity fields none now = .ok (recording.snapshot, after) := by
  obtain ⟨fields, podSpec, written, hfields, hpodSpec, hwrite, hretain⟩ := record_eq_ok h
  have hnone : podSpec = none := by
    obtain ⟨built, hbuilt, hrel⟩ := redactedPodSpec_eq_ok_iff.1 hpodSpec
    rw [hbuilder] at hbuilt
    cases hbuilt
    cases hrel
    rfl
  have hafter : written = after := by
    have hprunes : r.settings.prunes = false := decide_eq_false (Int.not_lt.2 hretention)
    simp only [retain, hprunes, Bool.false_eq_true, if_false, Except.ok.injEq, Prod.mk.injEq] at hretain
    exact hretain.2
  rw [hnone, hafter] at hwrite
  exact ⟨fields, hfields, hwrite⟩

/-- A run that is recorded can be read back exactly when its fields are not nested too deeply. Let a run without
a pod be recorded without retention, whose map index fits in 32 bits, of an owner whose integers are signed
words, into a table in which the other rows of its workflow can be decoded. Then its fields have at most two
levels more than the limit of the recorder. If they have no more than are read, all ways to read come back with
its snapshot; otherwise all of them fail. -/
theorem readable_iff_shallow_record (hretention : r.settings.retention ≤ 0)
    (hindex : ∀ n, identity.mapIndex = some n → (n : Int) ≤ Run.greatestIndex)
    (hintegers : ∀ n ∈ owner.toField.integers, Json.fitsSigned n = true) (hbuilder : builder identity = .ok none)
    (hothers : ∀ row ∈ t.rows, row.workflow = identity.workflow → ¬row.isOf identity = true →
      ∃ snapshot, Store.snapshotOf row = .ok snapshot)
    (hrecord : r.record ⟨some t⟩ id now identity owner builder = .ok (recording, after)) :
    (Fields.toJson recording.snapshot.fields).nesting ≤ r.settings.depthLimit + 2 ∧
      ((Fields.toJson recording.snapshot.fields).nesting ≤ Json.deepest →
        ∃ fields, after.ReadsBack ⟨id, identity, fields, none, now.floored⟩) ∧
      (Json.deepest < (Fields.toJson recording.snapshot.fields).nesting → after.Withholds identity) := by
  obtain ⟨fields, hfields, hwrite⟩ := write_of_record hretention hbuilder hrecord
  obtain ⟨hwritable, hlevels⟩ := redactedFields_spec hintegers hfields
  obtain ⟨hsnapshot, u, t', stored, htable, rfl, hstored, hinsert⟩ := Store.write_eq_ok hwrite
  cases htable
  rw [hsnapshot] at hinsert ⊢
  have hfind := Table.find?_insert_erase (i := identity) (Row.isOf_iff.2 ⟨rfl, rfl, rfl, rfl⟩) hinsert
  have hread := exists_fieldsOfText_iff hwritable
  refine ⟨hlevels, ?_, ?_⟩
  · intro hshallow
    obtain ⟨read, hfieldsRead⟩ := hread.2 hshallow
    have hdecoded : Store.snapshotOf { Store.rowOf ⟨id, identity, fields, none, now.toUtc⟩ stored with seq := t.next } =
        .ok ⟨id, identity, read, none, now.floored⟩ :=
      snapshotOf_of_holds ⟨SnapshotId.ofText_text id, Row.isOf_iff.2 ⟨rfl, rfl, rfl, rfl⟩, hfieldsRead, .none,
        Timestamp.ofStored?_of_stored? hstored⟩ hindex
    refine ⟨read, readsBack_of_row hfind hdecoded ?_⟩
    intro row hrow hworkflow
    obtain ⟨-, rfl⟩ := Table.insert_eq_ok hinsert
    rcases List.mem_append.1 hrow with hold | hnew
    · obtain ⟨hmem, hnot⟩ := List.mem_filter.1 hold
      exact hothers row hmem hworkflow (by simpa using hnot)
    · rw [List.mem_singleton.1 hnew]
      exact ⟨_, hdecoded⟩
  · intro hdeep
    cases hfault : Store.fieldsOfText (Store.fieldsText fields) with
    | ok read => exact absurd (hread.1 ⟨read, hfault⟩) (Nat.not_le.2 hdeep)
    | error fault => exact withholds_of_row hfind hfault

/-- An owner with one field. -/
def withField (v : Raw) : Owner := ⟨"K", ["f"], [], [("f", v)]⟩

/-- A recorder with some limit that resolves nothing, hides nothing and keeps all run keys. -/
def lenient (limit : Nat) : Recorder := { plain 0 with settings := { retention := 0, depthLimit := limit } }

/-- A sequence is recorded beside two other runs of its workflow, and read back. -/
theorem readable_iff_shallow_record_of_sequence : ∃ recording after fields,
    (lenient 1).record ⟨some twoRunKeys⟩ ⟨3⟩ ⟨0, 0⟩ ⟨"w", "u", "r", some 0⟩
      (withField (.sequence [.text "x", .integer 7])) .none =
      .ok (recording, after) ∧ after.ReadsBack ⟨⟨3⟩, ⟨"w", "u", "r", some 0⟩, fields, none, ⟨0, 0⟩⟩ := by
  obtain ⟨recording, after, hrecord, hnesting⟩ : ∃ recording after,
      (lenient 1).record ⟨some twoRunKeys⟩ ⟨3⟩ ⟨0, 0⟩ ⟨"w", "u", "r", some 0⟩
        (withField (.sequence [.text "x", .integer 7])) .none =
        .ok (recording, after) ∧ (Fields.toJson recording.snapshot.fields).nesting = 2 := ⟨_, _, rfl, rfl⟩
  have hindex : ∀ n, (⟨"w", "u", "r", some 0⟩ : Run).mapIndex = some n → (n : Int) ≤ Run.greatestIndex := by
    rintro _ ⟨⟩
    decide
  have hintegers : ∀ n ∈ (withField (.sequence [.text "x", .integer 7])).toField.integers,
      Json.fitsSigned n = true := by
    simp [withField, Owner.toField, Raw.integers, Raw.integersEntries, Raw.integersItems, Json.fitsSigned,
      Json.leastInteger, Json.greatestInteger]
  have hothers : ∀ row ∈ twoRunKeys.rows, ∃ snapshot, Store.snapshotOf row = .ok snapshot := by
    intro row hrow
    simp only [twoRunKeys, List.mem_cons, List.not_mem_nil, or_false] at hrow
    rcases hrow with rfl | rfl
    · exact ⟨_, rfl⟩
    · exact ⟨_, rfl⟩
  obtain ⟨-, hreads, -⟩ :=
    readable_iff_shallow_record (by decide) hindex hintegers rfl (fun row hrow _ _ => hothers row hrow) hrecord
  obtain ⟨fields, hback⟩ := hreads (by rw [hnesting]; decide)
  exact ⟨recording, after, fields, hrecord, hback⟩

/-- Sequences in one another, with nothing in the last one, as a value that can be rendered. -/
def nestedRaw : Nat → Raw
  | 0 => .null
  | n + 1 => .sequence [nestedRaw n]

/-- Sequences in one another are rendered as they are, unless they reach beyond the limit. -/
theorem renderFrom_nestedRaw (renderer : Renderer) (field : String) (resolve : Bool) (n depth : Nat)
    (hle : depth + n ≤ renderer.depthLimit) :
    renderer.renderFrom field depth resolve (nestedRaw n) = .ok (nested n) := by
  induction n generalizing depth with
  | zero =>
    have hcheck : renderer.checkDepth depth = .ok () := if_neg (Nat.not_lt.2 hle)
    rw [nestedRaw, Renderer.renderFrom, hcheck]
    rfl
  | succ n ih =>
    have hcheck : renderer.checkDepth depth = .ok () := if_neg (by omega)
    have hinner := ih (depth + 1) (by omega)
    simp only [nestedRaw, Renderer.renderFrom, Renderer.renderItems, hcheck, hinner, bind, Except.bind, nested]

/-- Sequences in one another have nothing to hide. -/
theorem redact_nested (p : Redaction.Policy) (masked : Bool) (n : Nat) :
    p.redact masked (nested n) = .ok (nested n) := by
  induction n with
  | zero => rfl
  | succ n ih => simp only [nested, Redaction.Policy.redact, Redaction.Policy.redactItems, ih, bind, Except.bind]

/-- Every positive limit is valid. -/
theorem validate_lenient {limit : Nat} (h : 0 < limit) : (lenient limit).settings.validate = .ok () := by
  have hpositive : ¬(lenient limit).settings.depthLimit = 0 := Nat.ne_of_gt h
  rw [Settings.validate, if_neg hpositive]
  rfl

/-- What is recorded of sequences in one another, as many as the limit allows. -/
theorem redactedFields_nestedRaw {n limit : Nat} (hpositive : 0 < limit) (hle : n ≤ limit) :
    (lenient limit).redactedFields (withField (nestedRaw n)) = .ok [("f", nested n)] := by
  have hvalid := validate_lenient hpositive
  have hhides : (lenient limit).policy.hides "f" = .ok false := rfl
  have hrender := renderFrom_nestedRaw ⟨(lenient limit).engine, (lenient limit).settings.depthLimit⟩ "f" true n 0
    (by rw [Nat.zero_add]; exact hle)
  have hvalue : (withField (nestedRaw n)).field? "f" = some (nestedRaw n) := rfl
  have hfield :
      Renderer.renderField ⟨(lenient limit).engine, (lenient limit).settings.depthLimit⟩ (withField (nestedRaw n)) "f" =
        .ok ("f", nested n) := by
    simp only [Renderer.renderField, hvalue, Renderer.render, hrender, bind, Except.bind]
  have howner :
      Renderer.renderOwner ⟨(lenient limit).engine, (lenient limit).settings.depthLimit⟩ (withField (nestedRaw n)) =
        .ok [("f", nested n)] := by
    have hnames : (withField (nestedRaw n)).templateFields = ["f"] := rfl
    rw [Renderer.renderOwner, hnames, List.mapM_cons, hfield]
    rfl
  have hredacted : (lenient limit).policy.applyTo [("f", nested n)] = .ok [("f", nested n)] := by
    simp only [Redaction.Policy.applyTo, Redaction.Policy.redactEntries, hhides, redact_nested, bind, Except.bind,
      Bool.false_eq_true, if_false]
  exact redactedFields_eq_ok_iff.2 ⟨hvalid, _, howner, hredacted⟩

/-- With a limit that is no lower than that of the reader, as many sequences in one another as are read by
themselves are recorded, and cannot be read in their field. -/
theorem exists_withheld {limit : Nat} (h : Json.deepest ≤ limit) : ∃ recording after,
    (lenient limit).record ⟨some {}⟩ ⟨1⟩ ⟨0, 0⟩ ⟨"w", "t", "r", none⟩ (withField (nestedRaw Json.deepest)) .none =
      .ok (recording, after) ∧ after.Withholds ⟨"w", "t", "r", none⟩ := by
  have hfields := redactedFields_nestedRaw (Nat.lt_of_lt_of_le (by decide : 0 < Json.deepest) h) h
  have hidentity : Run.validate ⟨"w", "t", "r", none⟩ = .ok () := rfl
  obtain ⟨snapshot, t, row, hwrite, hfind, hrow⟩ : ∃ snapshot t row,
      Store.write ⟨some {}⟩ ⟨1⟩ ⟨"w", "t", "r", none⟩ [("f", nested Json.deepest)] none ⟨0, 0⟩ =
        .ok (snapshot, ⟨some t⟩) ∧
        t.find? ⟨"w", "t", "r", none⟩ = some row ∧ row.fields = Store.fieldsText [("f", nested Json.deepest)] :=
    ⟨_, _, _, rfl, rfl, rfl⟩
  obtain ⟨fault, hfault⟩ := fieldsOfText_nested "f"
  rw [← hrow] at hfault
  refine ⟨⟨snapshot, 0⟩, ⟨some t⟩, ?_, withholds_of_row hfind hfault⟩
  simp only [record, hidentity, hfields, hwrite, redactedPodSpec, PodSpecSource.none, Except.mapError, bind,
    Except.bind]
  rfl

/-- With valid settings and without retention a run is recorded, and cannot be read. -/
theorem record_deep_withheld : ∃ recording after,
    (lenient 200).record ⟨some {}⟩ ⟨1⟩ ⟨0, 0⟩ ⟨"w", "t", "r", none⟩ (withField (nestedRaw Json.deepest)) .none =
      .ok (recording, after) ∧ (lenient 200).settings.validate = .ok () ∧ (lenient 200).settings.prunes = false ∧
      after.Withholds ⟨"w", "t", "r", none⟩ := by
  obtain ⟨recording, after, hrecord, hwithheld⟩ := exists_withheld (show Json.deepest ≤ 200 by decide)
  exact ⟨recording, after, hrecord, rfl, rfl, hwithheld⟩

end Recorder

end SnapshotLedger
