import Mathlib.Data.List.Forall2
import SnapshotLedger.Proofs.Store.Recency

/-!
# All ways to read show the same store

The snapshot in a row is put together from the parts of the row (`Row.Holds`), which is what the ways to read
that take only one column decode as well. In a table whose rows can all be decoded, the listing of a workflow is
the list of its rows, newest first, and all other answers about the workflow are parts of it
(`exists_showsWorkflow`). The rows that calls with proper writes leave are rows of those writes, so that this
holds of every store that they lead to (`run_reads_agree`). A limit on a listing is checked before any row is
read, and then only the rows up to it are, so that it leaves the front of what would be listed without it
(`list_with_limit`).
-/

namespace SnapshotLedger

namespace Store

/-- The three answers about an identity are parts of one snapshot, or say that there is none. -/
structure ShowsIdentity (s : Store) (i : Run) (answer : Option Snapshot) : Prop where
  whole : s.get? i = .ok answer
  fields : s.fields? i = .ok (answer.map Snapshot.fields)
  podSpec : s.podSpec? i = .ok (answer.bind Snapshot.podSpec)

/-- The answers about a workflow are taken from one list. It shows each row of the workflow once, a row before
another only when it is newer, and a snapshot is in it exactly when it is found under its identity. -/
structure ShowsWorkflow (s : Store) (t : Table) (workflow : String) (rows : List Row) (shown : List Snapshot) :
    Prop where
  once : rows.Perm (t.rows.filter (·.workflow = workflow))
  newest : rows.Pairwise fun r u => u.recency < r.recency
  decoded : List.Forall₂ (fun r snapshot => snapshotOf r = .ok snapshot ∧
    snapshot.createdAt.micros = r.micros) rows shown
  listed : s.list workflow none none = .ok shown
  tasks : ∀ task, s.list workflow (some task) none = .ok (shown.filter (·.identity.task = task))
  counted : ∀ task, s.count workflow task = .ok (shown.filter (·.identity.task = task)).length
  found : ∀ snapshot, snapshot ∈ shown ↔
    snapshot.identity.workflow = workflow ∧ s.get? snapshot.identity = .ok (some snapshot)

namespace ReadingAux

open RecencyAux RefinementAux

variable {t : Table} {r : Row}

/-! ## Rows and their snapshots -/

/-- A map index that is read was stored. -/
theorem eq_of_mapIndexOf {n : Int} {index : Option Nat} (h : mapIndexOf n = .ok index) (workflow task runKey : String) :
    n = Run.storedIndex ⟨workflow, task, runKey, index⟩ := by
  unfold mapIndexOf at h
  split at h
  · next hnone =>
    cases h
    exact hnone
  · split at h
    · next hrange =>
      cases h
      simp only [Bool.and_eq_true, decide_eq_true_eq] at hrange
      exact (Int.toNat_of_nonneg hrange.1).symm
    · cases h

/-- The snapshot of a row is what the row holds. -/
theorem holds_of_snapshotOf {s : Snapshot} (h : snapshotOf r = .ok s) : r.Holds s := by
  unfold snapshotOf readColumn at h
  obtain ⟨id, hid, h⟩ := bind_eq_ok h
  obtain ⟨index, hindex, h⟩ := bind_eq_ok h
  obtain ⟨fields, hfields, h⟩ := bind_eq_ok h
  have hstored := eq_of_mapIndexOf hindex r.workflow r.task r.runKey
  obtain ⟨podSpec, createdAt, hpart, htime, rfl⟩ : ∃ podSpec createdAt,
      Option.Rel (fun text podSpec => fieldsOfText text = .ok podSpec) r.podSpec podSpec ∧
        Timestamp.ofStored? r.createdAt = some createdAt ∧
        ⟨id, ⟨r.workflow, r.task, r.runKey, index⟩, fields, podSpec, createdAt⟩ = s := by
    cases htext : r.podSpec with
    | none =>
      rw [htext] at h
      dsimp only [bind, Except.bind] at h
      split at h
      · next createdAt htime => exact ⟨none, createdAt, .none, htime, Except.ok.inj h⟩
      · cases h
    | some text =>
      rw [htext] at h
      obtain ⟨podSpec, hpodSpec, h⟩ := bind_eq_ok h
      obtain ⟨part, hpart, rfl⟩ := map_eq_ok hpodSpec
      split at h
      · next createdAt htime => exact ⟨some part, createdAt, .some (mapError_eq_ok hpart), htime, Except.ok.inj h⟩
      · cases h
  exact ⟨mapError_eq_ok hid, Row.isOf_iff.2 ⟨rfl, rfl, rfl, hstored⟩, mapError_eq_ok hfields, hpart, htime⟩

/-- The snapshot in a row was created at the instant of the row. -/
theorem micros_of_holds {s : Snapshot} (h : r.Holds s) : s.createdAt.micros = r.micros := by
  rw [Row.micros, h.createdAt]
  rfl

/-! ## One identity -/

/-- What is shown of an identity without a row. -/
theorem showsIdentity_none {i : Run} (h : t.find? i = none) : ShowsIdentity ⟨some t⟩ i none where
  whole := by simp only [get?, tableFor, bind, Except.bind, h]
  fields := by simp only [fields?, column?, tableFor, bind, Except.bind, h, Option.bind_none, Option.map_none]
  podSpec := by simp only [podSpec?, column?, tableFor, bind, Except.bind, h, Option.bind_none]

/-- What is shown of an identity whose row can be decoded. -/
theorem showsIdentity_some {i : Run} {s : Snapshot} (h : t.find? i = some r) (hs : snapshotOf r = .ok s) :
    ShowsIdentity ⟨some t⟩ i (some s) := by
  have hholds := holds_of_snapshotOf hs
  refine ⟨?_, ?_, ?_⟩
  · simp only [get?, tableFor, bind, Except.bind, h, hs]
    rfl
  · simp only [fields?, column?, tableFor, bind, Except.bind, h, Option.bind_some, hholds.fields]
    rfl
  · have hpart := hholds.podSpec
    cases htext : r.podSpec <;> cases hspec : s.podSpec <;> rw [htext, hspec] at hpart <;> cases hpart
    · simp only [podSpec?, column?, tableFor, bind, Except.bind, h, Option.bind_some, htext, hspec]
    · next hread =>
      simp only [podSpec?, column?, tableFor, bind, Except.bind, h, Option.bind_some, htext, hspec, hread]
      rfl

/-- A snapshot that is found is that of the row of its identity. -/
theorem exists_row_of_get? {i : Run} {s : Snapshot} (h : get? ⟨some t⟩ i = .ok (some s)) :
    ∃ r, t.find? i = some r ∧ snapshotOf r = .ok s := by
  cases hfind : t.find? i with
  | none =>
    rw [(showsIdentity_none hfind).whole] at h
    cases h
  | some r =>
    refine ⟨r, rfl, ?_⟩
    simp only [get?, tableFor, bind, Except.bind, hfind] at h
    obtain ⟨snapshot, hsnapshot, heq⟩ := map_eq_ok h
    rw [mapError_eq_ok hsnapshot, Option.some.inj heq]

/-! ## One workflow -/

/-- The rows of a task in the listing of its workflow stand there as in the listing of the task. -/
theorem filter_listing (h : t.Sound) (workflow task : String) :
    (t.listing workflow none).filter (·.task = task) = t.listing workflow (some task) := by
  have hperm : ((t.listing workflow none).filter (·.task = task)).Perm (t.listing workflow (some task)) := by
    refine ((perm_listing_filter t workflow none).filter _).trans
      (.trans (.of_eq ?_) (perm_listing t workflow task).symm)
    rw [List.filter_filter]
    refine List.filter_congr ?_
    intro r _
    simp [Row.isOfTask, Bool.and_comm]
  refine hperm.eq_of_pairwise ?_ ((pairwise_listing h workflow none).filter _) (pairwise_listing h workflow (some task))
  intro r s _ _ hrs hsr
  exact absurd hrs (lt_asymm hsr)

/-- A listing without a limit shows the snapshots of its rows, one after the other. -/
theorem list_eq_ok_iff {workflow : String} {task : Option String} {shown : List Snapshot} :
    list ⟨some t⟩ workflow task none = .ok shown ↔
      List.Forall₂ (fun r snapshot => snapshotOf r = .ok snapshot) (t.listing workflow task) shown := by
  rw [list_eq_mapM, mapM_eq_ok_iff]
  simp only [mapError_eq_ok_iff]

/-- A listing with a limit refuses one that is no signed word, and goes through the first rows alone otherwise. -/
theorem list_some_eq (t : Table) (workflow : String) (task : Option String) (limit : Nat) :
    list ⟨some t⟩ workflow task (some limit) = if 2 ^ 63 ≤ limit then .error (.table .decodingRow .limitTooLarge)
      else ((t.listing workflow task).take limit).mapM fun r => (snapshotOf r).mapError (.row .decodingRow) := by
  have hgreatest : greatestLimit < limit ↔ 2 ^ 63 ≤ limit := by
    unfold greatestLimit
    omega
  simp only [list, tableFor, bind, Except.bind, hgreatest]

/-- A listing with a limit shows the snapshots of the first rows, one after the other. -/
theorem list_some_eq_ok_iff {workflow : String} {task : Option String} {limit : Nat} {shown : List Snapshot} :
    list ⟨some t⟩ workflow task (some limit) = .ok shown ↔ limit < 2 ^ 63 ∧
      List.Forall₂ (fun r snapshot => snapshotOf r = .ok snapshot) ((t.listing workflow task).take limit) shown := by
  rw [list_some_eq]
  split
  · next hlarge => exact ⟨nofun, fun h => absurd h.1 (Nat.not_lt.2 hlarge)⟩
  · next hword =>
    rw [mapM_eq_ok_iff, and_iff_right (Nat.not_le.1 hword)]
    simp only [mapError_eq_ok_iff]

/-- A listing without a limit is one of a table. -/
theorem exists_table_of_list {s : Store} {workflow : String} {task : Option String} {limit : Option Nat}
    {shown : List Snapshot} (h : s.list workflow task limit = .ok shown) : ∃ t, s = ⟨some t⟩ := by
  obtain ⟨_ | t⟩ := s
  · cases h
  · exact ⟨t, rfl⟩

/-- The listing of a workflow has the rows of the workflow in it. -/
theorem perm_listing_workflow (t : Table) (workflow : String) :
    (t.listing workflow none).Perm (t.rows.filter (·.workflow = workflow)) := by
  refine (perm_listing_filter t workflow none).trans (.of_eq (List.filter_congr ?_))
  intro r _
  simp

/-- A row is in the listing of a workflow exactly when it is one of the workflow. -/
theorem mem_listing_workflow {workflow : String} :
    r ∈ t.listing workflow none ↔ r ∈ t.rows ∧ r.workflow = workflow := by
  rw [(perm_listing_workflow t workflow).mem_iff, List.mem_filter, decide_eq_true_eq]

/-- In a table whose rows can all be decoded, all answers about a workflow are taken from one list. -/
theorem exists_showsWorkflow (h : t.Sound) (hread : ∀ r ∈ t.rows, ∃ s, snapshotOf r = .ok s) (workflow : String) :
    ∃ rows shown, ShowsWorkflow ⟨some t⟩ t workflow rows shown := by
  obtain ⟨shown, hmade⟩ := exists_mapM_eq_ok fun r (hr : r ∈ t.listing workflow none) =>
    hread r (mem_listing_workflow.1 hr).1
  have hshown := mapM_eq_ok_iff.1 hmade
  have htasks : ∀ task, List.Forall₂ (fun r snapshot => snapshotOf r = .ok snapshot) (t.listing workflow (some task))
      (shown.filter (·.identity.task = task)) := by
    intro task
    rw [← filter_listing h workflow task]
    refine List.rel_filter ?_ hshown
    intro r snapshot hdecoded
    simp [(Row.isOf_iff.1 (holds_of_snapshotOf hdecoded).identity).2.1]
  refine ⟨t.listing workflow none, shown, perm_listing_workflow t workflow, pairwise_listing h workflow none, ?_,
    list_eq_ok_iff.2 hshown, ?_, ?_, ?_⟩
  · refine hshown.imp ?_
    intro r snapshot hdecoded
    exact ⟨hdecoded, micros_of_holds (holds_of_snapshotOf hdecoded)⟩
  · intro task
    exact list_eq_ok_iff.2 (htasks task)
  · intro task
    have hcount : count ⟨some t⟩ workflow task = .ok (t.group workflow task).length := rfl
    rw [hcount, ← (htasks task).length_eq, (perm_listing t workflow task).length_eq]
  · intro snapshot
    constructor
    · intro hsnapshot
      obtain ⟨r, hr, hdecoded⟩ := mem_of_mapM_eq_ok hmade hsnapshot
      obtain ⟨hrow, hworkflow⟩ := mem_listing_workflow.1 hr
      have hof := (holds_of_snapshotOf hdecoded).identity
      refine ⟨(Row.isOf_iff.1 hof).1.symm.trans hworkflow, ?_⟩
      exact (showsIdentity_some (h.find?_eq_some_iff.2 ⟨hrow, hof⟩) hdecoded).whole
    · rintro ⟨hworkflow, hget⟩
      obtain ⟨r, hfind, hdecoded⟩ := exists_row_of_get? hget
      obtain ⟨hrow, hof⟩ := h.find?_eq_some_iff.1 hfind
      have hr := mem_listing_workflow.2 ⟨hrow, (Row.isOf_iff.1 hof).1.trans hworkflow⟩
      obtain ⟨snapshot', hsnapshot', hdecoded'⟩ := mem_mapM_of_eq_ok hmade hr
      rw [hdecoded] at hdecoded'
      rw [Except.ok.inj hdecoded']
      exact hsnapshot'

/-! ## Runs -/

/-- After a run, each row is that of a write of the run. -/
theorem stored_run (calls : List Call) :
    ∃ t, run calls = ⟨some t⟩ ∧ ∀ r ∈ t.rows, ∃ w, .write w ∈ calls ∧ w.Stored r := by
  refine run_invariant (fun r hr => absurd hr List.not_mem_nil) ?_
  intro c hc t t' h hchange
  cases hchange with
  | left => exact h
  | erased _ picks => exact fun r hr => h r (List.mem_filter.1 hr).1
  | written w stored t' time inserted =>
    refine Table.forall_mem_insert inserted ?_ ⟨w, hc, stored, _, time, rfl⟩
    exact fun r hr => h r (List.mem_filter.1 hr).1

end ReadingAux

open RefinementAux ReadingAux

/-- All ways to read show the same store. After any calls on an empty store, of which the writes are proper, the
answers about a workflow are taken from one list of the rows of the workflow, the newest first; and the three
answers about an identity are parts of one snapshot or say that there is none, where the snapshot lacks the
fields of a pod exactly when the last write of the identity did. -/
theorem run_reads_agree (calls : List Call) (h : ∀ w, .write w ∈ calls → w.Proper) :
    ∃ t, run calls = ⟨some t⟩ ∧ (∀ workflow, ∃ rows shown, ShowsWorkflow (run calls) t workflow rows shown) ∧
      ∀ i, ∃ answer, ShowsIdentity (run calls) i answer ∧
        ∀ snapshot, answer = some snapshot → ∃ k w, LastAt calls k w ∧ w.identity = i ∧
          (snapshot.podSpec = none ↔ w.podSpec = none) := by
  obtain ⟨t, hrun, hsound, hfound⟩ := run_spec calls fun w hw => (h w hw).inEra
  obtain ⟨u, hrun', hstored⟩ := stored_run calls
  obtain rfl := table_unique hrun hrun'
  have hread : ∀ r ∈ t.rows, ∃ s, snapshotOf r = .ok s := by
    intro r hr
    obtain ⟨w, hw, hwritten⟩ := hstored r hr
    obtain ⟨s, hs, -⟩ := snapshotOf_stored (h w hw) hwritten
    exact ⟨s, hs⟩
  rw [hrun]
  refine ⟨t, rfl, exists_showsWorkflow hsound hread, ?_⟩
  intro i
  cases hfound i with
  | none absent gone => exact ⟨none, showsIdentity_none absent, nofun⟩
  | last k w r present stored identity last kept =>
    have hw : w.Proper := by
      obtain ⟨c, hc, hwrites, -⟩ := last.1
      exact h w (hwrites ▸ List.mem_of_getElem? hc)
    obtain ⟨s, hs, hshown⟩ := snapshotOf_stored hw stored
    refine ⟨some s, showsIdentity_some present hs, ?_⟩
    rintro _ ⟨⟩
    refine ⟨k, w, last, identity, ?_⟩
    rw [← Option.map_eq_none_iff, hshown.podSpec, Option.map_eq_none_iff]

/-- Snapshots of two tasks of a workflow, of which one has the fields of a pod and the other a map index. -/
def twoTasks : List Call :=
  [.write ⟨⟨1⟩, ⟨"w", "t", "r", none⟩, [("x", .text "a")], some [], ⟨0, 0⟩⟩,
    .write ⟨⟨2⟩, ⟨"w", "u", "r", some 0⟩, [], none, ⟨1, 0⟩⟩]

/-- Two snapshots are shown of the workflow, and one of each task. -/
theorem run_reads_agree_of_two_tasks :
    ∃ t rows shown, ShowsWorkflow (run twoTasks) t "w" rows shown ∧ shown.length = 2 ∧
    (run twoTasks).count "w" "u" = .ok 1 ∧ ∃ answer, ShowsIdentity (run twoTasks) ⟨"w", "u", "r", some 0⟩ answer := by
  have hempty : Fields.Storable [] := ⟨.nil, trivial, trivial, by decide⟩
  have hproper : ∀ w, Call.write w ∈ twoTasks → w.Proper := by
    intro w hw
    simp only [twoTasks, List.mem_cons, Call.write.injEq, List.not_mem_nil, or_false] at hw
    rcases hw with rfl | rfl
    · refine ⟨by simp, ⟨List.pairwise_singleton _ _, ⟨trivial, trivial⟩, ⟨trivial, trivial⟩, by decide⟩, ?_, by decide⟩
      intro spec hspec
      rw [← Option.some.inj hspec]
      exact hempty
    · exact ⟨by simp [Run.greatestIndex], hempty, by simp, by decide⟩
  obtain ⟨t, hrun, hworkflow, hidentity⟩ := run_reads_agree twoTasks hproper
  obtain ⟨rows, shown, hshows⟩ := hworkflow "w"
  obtain ⟨answer, hanswer, -⟩ := hidentity ⟨"w", "u", "r", some 0⟩
  obtain ⟨u, hu, hlength⟩ : ∃ u, run twoTasks = ⟨some u⟩ ∧ (u.rows.filter (·.workflow = "w")).length = 2 :=
    ⟨_, rfl, by decide +kernel⟩
  obtain rfl := table_unique hrun hu
  refine ⟨t, rows, shown, hshows, ?_, rfl, answer, hanswer⟩
  rw [← hshows.decoded.length_eq, hshows.once.length_eq, hlength]

/-- A limit leaves the front of a listing. Where all snapshots are listed without a limit, the answer with one
is its number of them from the front, or all of them if there are no more, whether it is zero, past the end or
the greatest signed word. A greater limit is refused, however few snapshots there are. -/
theorem list_with_limit {s : Store} {workflow : String} {task : Option String} {shown : List Snapshot}
    (h : s.list workflow task none = .ok shown) (limit : Nat) :
    (∀ answer, s.list workflow task (some limit) = .ok answer ↔ limit < 2 ^ 63 ∧ answer = shown.take limit) ∧
      (2 ^ 63 ≤ limit → s.list workflow task (some limit) = .error (.table .decodingRow .limitTooLarge)) := by
  obtain ⟨t, rfl⟩ := exists_table_of_list h
  have hfront := List.forall₂_take limit (list_eq_ok_iff.1 h)
  have hunique : Relator.RightUnique fun r snapshot => snapshotOf r = .ok snapshot :=
    fun _ _ _ hsnapshot hother => Except.ok.inj (hsnapshot.symm.trans hother)
  refine ⟨fun answer => ?_, fun hlarge => ?_⟩
  · rw [list_some_eq_ok_iff]
    exact and_congr_right fun _ => ⟨fun hanswer => hunique.forall₂ hanswer hfront, fun hanswer => hanswer ▸ hfront⟩
  · rw [list_some_eq, if_pos hlarge]

/-- Both snapshots are listed without a limit. -/
theorem exists_list_twoTasks : ∃ shown, (run twoTasks).list "w" none none = .ok shown ∧ shown.length = 2 := by
  have hlength : ((run twoTasks).list "w" none none).toOption.map List.length = some 2 := by decide +kernel
  cases hlist : (run twoTasks).list "w" none none with
  | error e =>
    rw [hlist] at hlength
    cases hlength
  | ok shown =>
    rw [hlist] at hlength
    exact ⟨shown, rfl, Option.some.inj hlength⟩

/-- Of the two snapshots, a limit of one leaves the newer, and the greatest signed word leaves both. -/
theorem list_with_limit_of_two_tasks : ∃ shown, (run twoTasks).list "w" none none = .ok shown ∧ shown.length = 2 ∧
    (run twoTasks).list "w" none (some 1) = .ok (shown.take 1) ∧
    (run twoTasks).list "w" none (some (2 ^ 63 - 1)) = .ok shown ∧
    (run twoTasks).list "w" none (some (2 ^ 63)) = .error (.table .decodingRow .limitTooLarge) := by
  obtain ⟨shown, hlist, hlength⟩ := exists_list_twoTasks
  have hwhole : shown = shown.take (2 ^ 63 - 1) := (List.take_of_length_le (by omega)).symm
  exact ⟨shown, hlist, hlength, ((list_with_limit hlist 1).1 _).2 ⟨by decide, rfl⟩,
    ((list_with_limit hlist (2 ^ 63 - 1)).1 _).2 ⟨by decide, hwhole⟩, (list_with_limit hlist (2 ^ 63)).2 (le_refl _)⟩

/-- Under the first limit that is no signed word, the front of what is listed without a limit is not the answer,
though the limit still fits into an unsigned word. -/
theorem list_departs_past_signed_word : ∃ shown, (run twoTasks).list "w" none none = .ok shown ∧ 2 ^ 63 < 2 ^ 64 ∧
    (run twoTasks).list "w" none (some (2 ^ 63)) ≠ .ok (shown.take (2 ^ 63)) := by
  obtain ⟨shown, hlist, -⟩ := exists_list_twoTasks
  have hrefused : (run twoTasks).list "w" none (some (2 ^ 63)) = .error (.table .decodingRow .limitTooLarge) := rfl
  exact ⟨shown, hlist, by decide, fun h => nomatch hrefused.symm.trans h⟩

end Store

end SnapshotLedger
