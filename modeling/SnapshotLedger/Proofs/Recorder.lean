import SnapshotLedger.Proofs.Redaction.Masker
import SnapshotLedger.Proofs.Rendering
import SnapshotLedger.Proofs.Store.Invariant
import SnapshotLedger.Recorder

/-!
# What recording a run leaves

A run that is recorded has valid settings, and what is recorded of it is what the policy makes of the rendered
template fields of its owner and of the fields of its pod (`stages_of_record`). Recording adds one row, which
holds the documents of the snapshot that is answered, and brings no other (`rows_of_record`). With a masker as
its policy, the snapshot has none of the secrets in it that share no character with the marker, labels excepted,
and they are hidden in the texts of that row (`hides_of_record`).
-/

namespace SnapshotLedger

/-! ## Rows -/

namespace Store

/-- The store has the row. -/
def HasRow (s : Store) (r : Row) : Prop := ∃ t, s.table = some t ∧ r ∈ t.rows

/-- The row holds the documents of a snapshot. -/
def Row.Keeps (r : Row) (s : Snapshot) : Prop := r.fields = fieldsText s.fields ∧ r.podSpec = s.podSpec.map fieldsText

/-- The texts of the row hold the documents of a snapshot and hide a part. -/
structure Row.Hides (r : Row) (s : Snapshot) (part : String) : Prop where
  fields : s.fields.HiddenIn part r.fields
  podSpec : Option.Rel (fun spec text => Fields.HiddenIn spec part text) s.podSpec r.podSpec

/-- What the documents of a snapshot lack is hidden in a row that holds them. -/
theorem Row.Keeps.hides {r : Row} {s : Snapshot} {part : String} (h : r.Keeps s) (hfields : s.fields.Writable)
    (hlacks : s.fields.Lacks part) (hpodSpec : ∀ spec, s.podSpec = some spec → spec.Writable ∧ spec.Lacks part) :
    r.Hides s part where
  fields := by
    rw [h.1]
    exact Fields.hiddenIn_compact hfields hlacks
  podSpec := by
    rw [h.2]
    cases hspec : s.podSpec with
    | none => exact .none
    | some spec => exact .some (Fields.hiddenIn_compact (hpodSpec spec hspec).1 (hpodSpec spec hspec).2)

variable {s s' : Store} {r : Row}

/-- Writing brings no row but one with the documents of the snapshot. -/
theorem rows_of_write {id : SnapshotId} {identity : Run} {fields : Fields} {podSpec : Option Fields}
    {createdAt : Timestamp} {answer : Snapshot}
    (h : s.write id identity fields podSpec createdAt = .ok (answer, s')) (hr : s'.HasRow r) :
    s.HasRow r ∨ r.Keeps answer := by
  obtain ⟨-, t, t', stored, htable, rfl, -, hinsert⟩ := write_eq_ok h
  obtain ⟨u, hu, hr⟩ := hr
  obtain rfl := Option.some.inj hu
  obtain ⟨-, rfl⟩ := Table.insert_eq_ok hinsert
  rcases List.mem_append.1 hr with hold | hnew
  · exact .inl ⟨t, htable, (List.mem_filter.1 hold).1⟩
  · rw [List.mem_singleton.1 hnew]
    exact .inr ⟨rfl, rfl⟩

/-- Pruning brings no row. -/
theorem rows_of_prune {workflow task : String} {keep : Int} {answer : Nat}
    (h : s.prune workflow task keep = .ok (answer, s')) (hr : s'.HasRow r) : s.HasRow r := by
  rcases prune_eq_ok h with ⟨-, -, rfl⟩ | ⟨-, t, htable, rfl, -⟩
  · exact hr
  · obtain ⟨u, hu, hr⟩ := hr
    obtain rfl := Option.some.inj hu
    exact ⟨t, htable, (List.mem_filter.1 hr).1⟩

end Store

namespace Recorder

variable {r : Recorder} {store after : Store} {id : SnapshotId} {now : Timestamp} {identity : Run} {owner : Owner}
  {builder : PodSpecSource} {recording : Recording}

/-- What a run that is recorded has passed through. -/
theorem record_eq_ok (h : r.record store id now identity owner builder = .ok (recording, after)) :
    ∃ fields podSpec written, r.redactedFields owner = .ok fields ∧ r.redactedPodSpec builder identity = .ok podSpec ∧
      store.write id identity fields podSpec now = .ok (recording.snapshot, written) ∧
      r.retain written identity = .ok (recording.pruned, after) := by
  unfold record at h
  obtain ⟨-, -, h⟩ := bind_eq_ok h
  obtain ⟨fields, hfields, h⟩ := bind_eq_ok h
  obtain ⟨podSpec, hpodSpec, h⟩ := bind_eq_ok h
  obtain ⟨⟨snapshot, written⟩, hwrite, h⟩ := bind_eq_ok h
  obtain ⟨⟨pruned, kept⟩, hretain, h⟩ := bind_eq_ok h
  cases h
  exact ⟨fields, podSpec, written, hfields, hpodSpec, mapError_eq_ok hwrite, mapError_eq_ok hretain⟩

/-- Recording brings no row but one with the documents of the snapshot. -/
theorem rows_of_record (h : r.record store id now identity owner builder = .ok (recording, after)) {row : Store.Row}
    (hrow : after.HasRow row) : store.HasRow row ∨ row.Keeps recording.snapshot := by
  obtain ⟨fields, podSpec, written, -, -, hwrite, hretain⟩ := record_eq_ok h
  refine Store.rows_of_write hwrite ?_
  unfold retain at hretain
  split at hretain
  · exact Store.rows_of_prune hretain hrow
  · obtain ⟨-, rfl⟩ := Prod.mk.inj (Except.ok.inj hretain)
    exact hrow

/-! ## Stages -/

/-- The fields of an owner are recorded when the settings are valid, its template fields are rendered, and the
policy makes them of these. -/
theorem redactedFields_eq_ok_iff {fields : Fields} : r.redactedFields owner = .ok fields ↔
    r.settings.validate = .ok () ∧
      ∃ shown, Renderer.renderOwner ⟨r.engine, r.settings.depthLimit⟩ owner = .ok shown ∧
        r.policy.applyTo shown = .ok fields := by
  constructor
  · intro h
    unfold redactedFields at h
    obtain ⟨⟨⟩, hvalid, h⟩ := bind_eq_ok h
    obtain ⟨shown, hshown, h⟩ := bind_eq_ok h
    exact ⟨mapError_eq_ok hvalid, shown, hshown, mapError_eq_ok h⟩
  · rintro ⟨hvalid, shown, hshown, happly⟩
    have hredact : r.redact shown = .ok fields := mapError_eq_ok_iff.2 happly
    simp only [redactedFields, hvalid, hshown]
    exact hredact

/-- The fields of a pod are recorded when they are built and the policy makes them of these, and none are when none are
built. -/
theorem redactedPodSpec_eq_ok_iff {podSpec : Option Fields} : r.redactedPodSpec builder identity = .ok podSpec ↔
    ∃ built, builder identity = .ok built ∧
      Option.Rel (fun shown redacted => r.policy.applyTo shown = .ok redacted) built podSpec := by
  constructor
  · intro h
    unfold redactedPodSpec at h
    obtain ⟨built, hbuilt, h⟩ := bind_eq_ok h
    refine ⟨built, hbuilt, ?_⟩
    cases built with
    | none =>
      cases h
      exact .none
    | some shown =>
      obtain ⟨redacted, hredacted, rfl⟩ := map_eq_ok h
      exact .some (mapError_eq_ok hredacted)
  · rintro ⟨built, hbuilt, hrel⟩
    simp only [redactedPodSpec, hbuilt]
    cases hrel with
    | none => rfl
    | @some shown redacted happly =>
      have hredact : r.redact shown = .ok redacted := mapError_eq_ok_iff.2 happly
      change (r.redact shown).map some = .ok (some redacted)
      rw [hredact]
      rfl

/-- The stages of a run that is recorded: its settings are valid, and the snapshot has what the policy makes of
the rendered template fields of the owner and of the fields of the pod that were built. -/
theorem stages_of_record (h : r.record store id now identity owner builder = .ok (recording, after)) :
    r.settings.validate = .ok () ∧
      (∃ shown, Renderer.renderOwner ⟨r.engine, r.settings.depthLimit⟩ owner = .ok shown ∧
        r.policy.applyTo shown = .ok recording.snapshot.fields) ∧
      ∃ built, builder identity = .ok built ∧
        Option.Rel (fun shown redacted => r.policy.applyTo shown = .ok redacted) built recording.snapshot.podSpec := by
  obtain ⟨fields, podSpec, written, hfields, hpodSpec, hwrite, -⟩ := record_eq_ok h
  obtain ⟨hsnapshot, -⟩ := Store.write_eq_ok hwrite
  obtain ⟨hvalid, hfields⟩ := redactedFields_eq_ok_iff.1 hfields
  rw [hsnapshot]
  exact ⟨hvalid, hfields, redactedPodSpec_eq_ok_iff.1 hpodSpec⟩

/-! ## Secrets -/

variable {p : Redaction.Policy} {m : Masker} {secret : String} {fields redacted : Fields}

/-- Redaction brings no number. -/
theorem writable_applyTo (h : p.applyTo fields = .ok redacted) (hwritable : fields.Writable) : redacted.Writable := by
  intro leaf hleaf
  rw [Redaction.Policy.leaves_of_applyTo h] at hleaf
  obtain ⟨shown, hshown, rfl⟩ := List.mem_map.1 hleaf
  rcases p.maskedLeaf_eq_or_text shown with heq | ⟨s, hs⟩
  · rw [heq]
    exact hwritable shown hshown
  · rw [hs]
    exact Rendered.admits_writable.text s

section Hiding

variable (hmarker : m.marker.isEmpty = false) (hmem : secret ∈ m.secrets) (hblank : Text.isBlank secret = false)
  (hdistinct : ∀ c ∈ secret.toList, c ∉ m.marker.toList)

include hmarker hmem hblank hdistinct

/-- Fields that are redacted by a masker lack its secrets. -/
theorem lacks_applyTo (hwritable : fields.Writable) (h : m.policy.applyTo fields = .ok redacted) :
    redacted.Lacks secret := by
  have hpart := Text.toList_ne_nil_of_not_isBlank hblank
  refine Rendered.not_contains_stringsMembers hpart redacted fun leaf
    (hleaf : leaf ∈ Rendered.leavesEntries [] redacted) => ?_
  refine ⟨writable_applyTo h hwritable leaf hleaf, fun s hs => ?_⟩
  rw [Redaction.Policy.leaves_of_applyTo h] at hleaf
  obtain ⟨shown, -, rfl⟩ := List.mem_map.1 hleaf
  exact Masker.not_contains_maskedLeaf hmarker hmem hblank hdistinct shown hs

/-- The snapshot that is recorded lacks the secrets of the masker that is the policy, and they are hidden in its row. -/
theorem hides_of_record (hpolicy : r.policy = m.policy) (hsigned : owner.toField.Signed)
    (hbuilder : ∀ spec, builder identity = .ok (some spec) → spec.Writable)
    (h : r.record store id now identity owner builder = .ok (recording, after)) :
    recording.snapshot.fields.Lacks secret ∧ (∀ spec, recording.snapshot.podSpec = some spec → spec.Lacks secret) ∧
      ∀ row, after.HasRow row → store.HasRow row ∨ row.Hides recording.snapshot secret := by
  obtain ⟨-, ⟨shown, hshown, hfields⟩, built, hbuilt, hpodSpec⟩ := stages_of_record h
  rw [hpolicy] at hfields hpodSpec
  have hwritable := Renderer.writable_renderOwner hsigned hshown
  have hlacks := lacks_applyTo hmarker hmem hblank hdistinct hwritable hfields
  have hspecs : ∀ spec, recording.snapshot.podSpec = some spec → spec.Writable ∧ spec.Lacks secret := by
    intro spec hspec
    rw [hspec] at hpodSpec
    cases hpodSpec with
    | some hredacted =>
      have hbuilt := hbuilder _ hbuilt
      exact ⟨writable_applyTo hredacted hbuilt, lacks_applyTo hmarker hmem hblank hdistinct hbuilt hredacted⟩
  refine ⟨hlacks, fun spec hspec => (hspecs spec hspec).2, fun row hrow => ?_⟩
  exact (rows_of_record h hrow).imp_right fun hkeeps => hkeeps.hides (writable_applyTo hfields hwritable) hlacks hspecs

end Hiding

end Recorder

end SnapshotLedger
