import SnapshotLedger.Proofs.Recorder
import SnapshotLedger.Proofs.Store.InPlace
import SnapshotLedger.Proofs.Store.Retention

/-!
# Recording is all or nothing

A recorder that works on its store in place leaves the store as it was when it fails, at whatever step that is
(`on_inPlace`): nothing is written before all that comes before has succeeded, a write is one transaction, and
what comes behind it does not fail. When the recorder succeeds, it has replaced the row of the identity and
pruned the rows of its task (`tables_of_record`), and the rows of other tasks are as they were.
-/

namespace SnapshotLedger

namespace Store

/-- The rows of the task of an identity, with a row in the place of the one of the identity. -/
def Table.groupWith (t : Table) (identity : Run) (r : Row) : List Row :=
  (t.group identity.workflow identity.task).filter (!·.isOf identity) ++ [r]

/-- The rows of all tasks but one. -/
def Table.others (t : Table) (workflow task : String) : List Row := t.rows.filter (!·.isOfTask workflow task)

/-- The rows of one task that are left when so many run keys are kept; all of them unless the number is positive. -/
def retained (retention : Int) (rows : List Row) : List Row :=
  if retention ≤ 0 then rows else rows.filter fun r => ((ranking rows).take retention.toNat).contains r.runKey

/-- No row is left that was not there. -/
theorem length_retained_le (retention : Int) (rows : List Row) : (retained retention rows).length ≤ rows.length := by
  unfold retained
  split
  · exact Nat.le_refl _
  · exact List.length_filter_le _ _

namespace Table

variable {t t' : Table} {workflow task : String}

/-- Pruning leaves the rows of the task whose run keys are among the first. -/
theorem group_prune (t : Table) (workflow task : String) {retention : Int} (h : 0 < retention) :
    (t.prune workflow task retention.toNat).group workflow task = retained retention (t.group workflow task) := by
  have hpos : ¬retention ≤ 0 := Int.not_le.2 h
  rw [retained, if_neg hpos]
  change (t.rows.filter _).filter _ = (t.rows.filter _).filter _
  rw [List.filter_filter, List.filter_filter]
  refine List.filter_congr fun r _ => ?_
  by_cases htask : r.isOfTask workflow task = true
  · simp only [htask, Bool.true_and, Bool.not_not, Bool.and_true]
    rfl
  · simp only [htask, Bool.false_and, Bool.and_false]

/-- Pruning leaves the rows of other tasks. -/
theorem others_prune (t : Table) (workflow task : String) (keep : Nat) :
    (t.prune workflow task keep).others workflow task = t.others workflow task := by
  change (t.rows.filter _).filter _ = t.rows.filter _
  rw [List.filter_filter]
  refine List.filter_congr fun r _ => ?_
  by_cases htask : r.isOfTask workflow task = true
  · simp only [htask, Bool.not_true, Bool.false_and]
  · simp only [htask, Bool.false_and, Bool.not_false, Bool.and_self]

/-- Every row is one of the task or of another one. -/
theorem length_rows (t : Table) (workflow task : String) :
    t.rows.length = (t.group workflow task).length + (t.others workflow task).length :=
  List.length_eq_length_filter_add _

/-- A row of an identity is one of its task. -/
theorem isOfTask_of_isOf {r : Row} {i : Run} (h : r.isOf i = true) : r.isOfTask i.workflow i.task = true := by
  obtain ⟨hw, ht, -, -⟩ := Row.isOf_iff.1 h
  simp only [Row.isOfTask, hw, ht, decide_true, Bool.and_self]

/-- The row of a snapshot is one of its identity. -/
theorem isOf_rowOf (s : Snapshot) (createdAt : String) : (rowOf s createdAt).isOf s.identity = true :=
  Row.isOf_iff.2 ⟨rfl, rfl, rfl, rfl⟩

/-- What replacing the row of an identity does to the rows of its task, and to those of others. -/
theorem groups_of_insert {identity : Run} {r : Row} (hr : r.isOf identity = true)
    (h : (t.erase (·.isOf identity)).insert r = .ok t') :
    t'.group identity.workflow identity.task = t.groupWith identity { r with seq := t.next } ∧
      t'.others identity.workflow identity.task = t.others identity.workflow identity.task := by
  obtain ⟨-, rfl⟩ := insert_eq_ok h
  have hnew : Row.isOfTask { r with seq := t.next } identity.workflow identity.task = true :=
    isOfTask_of_isOf (i := identity) hr
  constructor
  · change (t.rows.filter _ ++ [_]).filter _ = (t.rows.filter _).filter _ ++ [_]
    rw [List.filter_append, List.filter_comm, List.filter_singleton]
    change _ ++ (bif Row.isOfTask { r with seq := t.next } _ _ then _ else _) = _
    rw [hnew]
    rfl
  · change (t.rows.filter _ ++ [_]).filter _ = t.rows.filter _
    rw [List.filter_append, List.filter_singleton]
    change _ ++ (bif !Row.isOfTask { r with seq := t.next } _ _ then _ else _) = _
    rw [hnew, List.filter_filter]
    refine (List.append_nil _).trans (List.filter_congr fun s _ => ?_)
    by_cases hs : s.isOf identity = true
    · simp only [isOfTask_of_isOf hs, Bool.not_true, Bool.false_and]
    · simp only [hs, Bool.not_false, Bool.and_true]

end Table
end Store

namespace Recorder

open Store (Table Row)

variable {r : Recorder} {t : Table} {after : Store} {id : SnapshotId} {now : Timestamp} {identity : Run} {owner : Owner}
  {builder : PodSpecSource} {recording : Recording}

/-- What is left of a table when old run keys of the task of a run are removed, if the settings ask for it. -/
def kept (r : Recorder) (identity : Run) (t : Table) : Table :=
  if r.settings.prunes then t.prune identity.workflow identity.task r.settings.retention.toNat else t

/-- Retention does not fail on a store with a table. -/
theorem retain_mk (r : Recorder) (t : Table) (identity : Run) :
    r.retain ⟨some t⟩ identity = .ok (t.rows.length - (r.kept identity t).rows.length, ⟨some (r.kept identity t)⟩) := by
  unfold retain kept
  split
  · next hprunes => exact Store.prune_mk t identity.workflow identity.task (of_decide_eq_true hprunes)
  · rw [Nat.sub_self]

/-- The rows of the task that are left. -/
theorem group_kept (r : Recorder) (identity : Run) (t : Table) :
    (r.kept identity t).group identity.workflow identity.task =
      Store.retained r.settings.retention (t.group identity.workflow identity.task) := by
  unfold kept
  split
  · next hprunes => exact Table.group_prune t identity.workflow identity.task (of_decide_eq_true hprunes)
  · next hprunes =>
    have hnot : r.settings.retention ≤ 0 := Int.not_lt.1 fun hpos => hprunes (decide_eq_true hpos)
    rw [Store.retained, if_pos hnot]

/-- The rows of other tasks are left. -/
theorem others_kept (r : Recorder) (identity : Run) (t : Table) :
    (r.kept identity t).others identity.workflow identity.task = t.others identity.workflow identity.task := by
  unfold kept
  split
  · exact Table.others_prune t identity.workflow identity.task _
  · rfl

/-- The rows that are removed and those that are left are the rows of the task. -/
theorem removed_add_length (r : Recorder) (identity : Run) (t : Table) :
    t.rows.length - (r.kept identity t).rows.length +
      ((r.kept identity t).group identity.workflow identity.task).length =
      (t.group identity.workflow identity.task).length := by
  have hrows := t.length_rows identity.workflow identity.task
  have hleft := (r.kept identity t).length_rows identity.workflow identity.task
  have hle := Store.length_retained_le r.settings.retention (t.group identity.workflow identity.task)
  rw [others_kept] at hleft
  rw [← group_kept] at hle
  omega

/-- What a run that is recorded makes of the table: its row takes the place of the one of the identity, then old
run keys are removed. -/
theorem tables_of_record (h : r.record ⟨some t⟩ id now identity owner builder = .ok (recording, after)) :
    ∃ fields podSpec stored t', r.redactedFields owner = .ok fields ∧ r.redactedPodSpec builder identity = .ok podSpec ∧
      now.stored? = some stored ∧ recording.snapshot = ⟨id, identity, fields, podSpec, now.toUtc⟩ ∧ after = ⟨some t'⟩ ∧
      t'.others identity.workflow identity.task = t.others identity.workflow identity.task ∧
      t'.group identity.workflow identity.task = Store.retained r.settings.retention
        (t.groupWith identity { Store.rowOf recording.snapshot stored with seq := t.next }) ∧
      recording.pruned + (t'.group identity.workflow identity.task).length =
        (t.groupWith identity { Store.rowOf recording.snapshot stored with seq := t.next }).length := by
  obtain ⟨fields, podSpec, between, hfields, hpodSpec, hwrite, hretain⟩ := record_eq_ok h
  obtain ⟨hsnapshot, u, written, stored, htable, rfl, hstored, hinsert⟩ := Store.write_eq_ok hwrite
  cases htable
  rw [retain_mk] at hretain
  obtain ⟨hpruned, rfl⟩ := Prod.mk.inj (Except.ok.inj hretain)
  have hof := Table.isOf_rowOf recording.snapshot stored
  rw [show recording.snapshot.identity = identity by rw [hsnapshot]] at hof
  obtain ⟨hgroup, hothers⟩ := Table.groups_of_insert hof hinsert
  refine ⟨fields, podSpec, stored, r.kept identity written, hfields, hpodSpec, hstored, hsnapshot, rfl, ?_, ?_, ?_⟩
  · exact (r.others_kept identity written).trans hothers
  · rw [group_kept, hgroup]
  · rw [← hpruned, ← hgroup]
    exact r.removed_add_length identity written

/-! ## In place -/

/-- Removes the oldest run keys of the task of a run in place, if the settings ask for it. -/
def retainInPlace (r : Recorder) (identity : Run) : Store.Work Store.Error Nat :=
  if r.settings.prunes then .prune identity.workflow identity.task r.settings.retention else pure 0

/-- Records a run in the store in place. -/
def inPlace (r : Recorder) (id : SnapshotId) (now : Timestamp) (identity : Run) (owner : Owner)
    (builder : PodSpecSource) :
    Store.Work LedgerError Recording := do
  identity.validate
  let fields ← r.redactedFields owner
  let podSpec ← r.redactedPodSpec builder identity
  let snapshot ← (Store.Work.write id identity fields podSpec now).adapt .ofStoreError
  let pruned ← (r.retainInPlace identity).adapt .ofStoreError
  return ⟨snapshot, pruned⟩

/-- Retention in place leaves the store that retention leads to. -/
theorem on_retainInPlace (r : Recorder) (s : Store) (identity : Run) :
    (r.retainInPlace identity).on s = Store.settled s (r.retain s identity) := by
  unfold retainInPlace retain
  split
  · exact Store.Work.on_prune ..
  · rfl

/-- Recording in place leaves the store that recording leads to, and the store as it was when it fails. -/
theorem on_inPlace (r : Recorder) (s : Store) (id : SnapshotId) (now : Timestamp) (identity : Run) (owner : Owner)
    (builder : PodSpecSource) : (r.inPlace id now identity owner builder).on s =
      Store.settled s (r.record s id now identity owner builder) := by
  unfold inPlace record
  refine Store.Work.on_lift_bind fun _ _ => ?_
  refine Store.Work.on_lift_bind fun fields _ => ?_
  refine Store.Work.on_lift_bind fun podSpec _ => ?_
  refine Store.Work.on_bind_settled
    (Store.Work.on_adapt_settled _ (Store.Work.on_write ..)) fun snapshot written hwrite => ?_
  obtain ⟨-, t, t', stored, -, rfl, -, -⟩ := Store.write_eq_ok (mapError_eq_ok hwrite)
  -- the store has a table now, so that retention does not fail behind the write
  have hretain := Store.Work.on_adapt_settled LedgerError.ofStoreError (r.on_retainInPlace ⟨some t'⟩ identity)
  dsimp only
  rw [retain_mk] at hretain ⊢
  exact Store.Work.on_bind_ok hretain

/-- Recording is all or nothing and stays inside its task. On every table, a run that cannot be recorded leaves
the table as it was. A run that is recorded leaves the rows of other tasks as they were; of the rows of its own
task it replaces that of the identity by one with the redacted fields and the redacted fields of the pod, and
then keeps as many run keys as the settings say, and the number of rows removed is part of the answer. -/
theorem inPlace_all_or_nothing (r : Recorder) (t : Table) (id : SnapshotId) (now : Timestamp) (identity : Run)
    (owner : Owner) (builder : PodSpecSource) (left : Store) :
    (∀ e, (r.inPlace id now identity owner builder).on ⟨some t⟩ = (.error e, left) →
      r.record ⟨some t⟩ id now identity owner builder = .error e ∧ left = ⟨some t⟩) ∧
      ∀ recording, (r.inPlace id now identity owner builder).on ⟨some t⟩ = (.ok recording, left) →
        r.record ⟨some t⟩ id now identity owner builder = .ok (recording, left) ∧
          ∃ fields podSpec stored t', r.redactedFields owner = .ok fields ∧
            r.redactedPodSpec builder identity = .ok podSpec ∧
            now.stored? = some stored ∧ recording.snapshot = ⟨id, identity, fields, podSpec, now.toUtc⟩ ∧
            left = ⟨some t'⟩ ∧
            t'.others identity.workflow identity.task = t.others identity.workflow identity.task ∧
            t'.group identity.workflow identity.task = Store.retained r.settings.retention
              (t.groupWith identity { Store.rowOf recording.snapshot stored with seq := t.next }) ∧
            recording.pruned + (t'.group identity.workflow identity.task).length =
              (t.groupWith identity { Store.rowOf recording.snapshot stored with seq := t.next }).length := by
  rw [on_inPlace]
  constructor
  · intro e h
    exact Store.settled_eq_error h
  · intro recording h
    have hrecord := Store.settled_eq_ok h
    exact ⟨hrecord, tables_of_record hrecord⟩

/-- A recorder that resolves nothing, hides nothing and keeps so many run keys of each task. -/
def plain (retention : Int) : Recorder where
  engine text := .ok text
  policy := .exact (fun _ => .ok false) (fun _ => .ok false)
  settings := { retention }

/-- The rows of two run keys of one task, written at the same instant. -/
def twoRunKeys : Table where
  rows := [⟨1, (SnapshotId.mk 1).text, "w", "t", "a", -1, "\x7b\x7d", none, "1970-01-01T00:00:00.000000Z"⟩,
    ⟨2, (SnapshotId.mk 2).text, "w", "t", "b", -1, "\x7b\x7d", none, "1970-01-01T00:00:00.000000Z"⟩]
  next := 3

/-- A recorder that hides what the usual masker hides, and keeps so many run keys of each task. -/
def masking (retention : Int) : Recorder := { plain retention with policy := Masker.usual.policy }

/-- An owner with a password. -/
def withPassword : Owner := ⟨"K", ["password", "user"], [], [("password", .text "x"), ("user", .text "me")]⟩

/-- A run is recorded again under an identifier that the table has already, which it refuses after the row of
the run has been taken away, and nothing has changed. Under another identifier the run is recorded with what the
policy makes of its rendered fields, in which the password is hidden, and the other run key is removed. -/
theorem inPlace_all_or_nothing_of_two :
    (∃ e left, ((masking 1).inPlace ⟨2⟩ ⟨0, 0⟩ ⟨"w", "t", "a", none⟩ withPassword .none).on
        ⟨some twoRunKeys⟩ = (.error e, left) ∧ left = ⟨some twoRunKeys⟩) ∧
      ∃ recording left t', ((masking 1).inPlace ⟨3⟩ ⟨0, 0⟩ ⟨"w", "t", "a", none⟩ withPassword .none).on
          ⟨some twoRunKeys⟩ = (.ok recording, left) ∧ left = ⟨some t'⟩ ∧ recording.pruned = 1 ∧
        recording.pruned + (t'.group "w" "t").length = 2 ∧
        (∃ shown, Renderer.renderOwner ⟨(masking 1).engine, (masking 1).settings.depthLimit⟩ withPassword = .ok shown ∧
          (masking 1).policy.applyTo shown = .ok recording.snapshot.fields) ∧
        t'.rows.map Row.fields = ["\x7b\"password\":\"***\",\"user\":\"me\"\x7d"] := by
  constructor
  · obtain ⟨e, left, h⟩ : ∃ e left, ((masking 1).inPlace ⟨2⟩ ⟨0, 0⟩ ⟨"w", "t", "a", none⟩ withPassword .none).on
        ⟨some twoRunKeys⟩ = (.error e, left) := ⟨_, _, rfl⟩
    exact ⟨e, left, h, ((inPlace_all_or_nothing _ _ _ _ _ _ _ _).1 e h).2⟩
  · obtain ⟨recording, t', h, hpruned, hrows⟩ : ∃ recording t', ((masking 1).inPlace ⟨3⟩ ⟨0, 0⟩ ⟨"w", "t", "a", none⟩
        withPassword .none).on ⟨some twoRunKeys⟩ = (.ok recording, ⟨some t'⟩) ∧ recording.pruned = 1 ∧
          t'.rows.map Row.fields = ["\x7b\"password\":\"***\",\"user\":\"me\"\x7d"] := ⟨_, _, rfl, rfl, rfl⟩
    obtain ⟨hrecord, _, _, _, u, -, -, -, -, hleft, -, -, hlength⟩ :=
      (inPlace_all_or_nothing _ _ _ _ _ _ _ _).2 recording h
    cases hleft
    exact ⟨recording, _, t', h, rfl, hpruned, hlength, (stages_of_record hrecord).2.1, hrows⟩

end Recorder

end SnapshotLedger
