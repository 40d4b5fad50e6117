import SnapshotLedger.Redaction.Fields
import SnapshotLedger.Rendering
import SnapshotLedger.Store.Basic

/-!
# Recording runs

A recorder renders the template fields of an owner, redacts them, writes them to a store, and removes the oldest
run keys of the task. Nothing is written unless everything before has succeeded, and an error leaves the store
as it was.
-/

namespace SnapshotLedger

/-- What a recorder works with. -/
structure Recorder where
  engine : Engine
  policy : Redaction.Policy
  settings : Settings

/-- A way to find the fields of the pod of a run, if it has one. -/
abbrev PodSpecSource := Run → Except LedgerError (Option Fields)

/-- A recorded snapshot, and the number of snapshots removed to make room for it. -/
structure Recording where
  snapshot : Snapshot
  pruned : Nat

namespace Recorder

/-- Fields with everything hidden that the policy hides. -/
def redact (r : Recorder) (fields : Fields) : Except LedgerError Fields :=
  (r.policy.applyTo fields).mapError .redaction

/-- The rendered and redacted template fields of an owner. -/
def redactedFields (r : Recorder) (owner : Owner) : Except LedgerError Fields := do
  r.settings.validate.mapError .configuration
  let fields ← Renderer.renderOwner ⟨r.engine, r.settings.depthLimit⟩ owner
  r.redact fields

/-- The redacted fields of the pod of a run. -/
def redactedPodSpec (r : Recorder) (builder : PodSpecSource) (identity : Run) :
    Except LedgerError (Option Fields) := do
  match ← builder identity with
  | some spec => (r.redact spec).map some
  | none => .ok none

/-- Removes the oldest run keys of the task of a run, if the settings ask for it. -/
def retain (r : Recorder) (store : Store) (identity : Run) : Except Store.Error (Nat × Store) :=
  if r.settings.prunes then store.prune identity.workflow identity.task r.settings.retention else .ok (0, store)

/-- Records a run under a new identifier at a given time. -/
def record (r : Recorder) (store : Store) (id : SnapshotId) (now : Timestamp) (identity : Run)
    (owner : Owner) (builder : PodSpecSource) : Except LedgerError (Recording × Store) := do
  identity.validate
  let fields ← r.redactedFields owner
  let podSpec ← r.redactedPodSpec builder identity
  let (snapshot, store) ← (store.write id identity fields podSpec now).mapError .ofStoreError
  let (pruned, store) ← (r.retain store identity).mapError .ofStoreError
  .ok (⟨snapshot, pruned⟩, store)

end Recorder

/-- The builder for runs without a pod. -/
def PodSpecSource.none : PodSpecSource := fun _ => .ok Option.none

end SnapshotLedger
