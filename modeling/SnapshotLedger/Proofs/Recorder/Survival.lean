import SnapshotLedger.Proofs.Json.Depth
import SnapshotLedger.Proofs.Recorder.AllOrNothing
import SnapshotLedger.Proofs.Store.Recency

/-!
# A recorded snapshot survives its own retention

After any calls the rows of a store have numbers below the next one and stored times of instants
(`stamped_run`). A run that is recorded at an instant that no row of its task was created after puts a row on
top of them: no other is later, and all others have smaller numbers (`Row.Tops`). Such a row leads the listing
of its task (`head?_listing_of_tops`), and its run key leads the ranking (`head?_ranking_of_tops`), so that it
is kept with all rows of its run key by whatever retention there is.
-/

namespace SnapshotLedger

namespace Store

/-- The rows have numbers below the next one and stored times of instants, in whatever years. -/
structure Table.Stamped (t : Table) : Prop where
  bounded : ∀ r ∈ t.rows, r.seq < t.next
  timed : ∀ r ∈ t.rows, ∃ time : Timestamp, time.stored? = some r.createdAt

/-- Of some rows, the row is as late as any, and it has a greater number than all others. -/
structure Row.Tops (r : Row) (rows : List Row) : Prop where
  mem : r ∈ rows
  others : ∀ s ∈ rows, s = r ∨ s.createdAt ≤ r.createdAt ∧ s.seq < r.seq

namespace SurvivalAux

open RetentionAux RecencyAux RefinementAux

variable {t t' : Table} {r : Row} {rows : List Row}

/-! ## After any calls -/

/-- Removing rows leaves the others stamped. -/
theorem stamped_erase (h : t.Stamped) (picks : Row → Bool) : (t.erase picks).Stamped where
  bounded s hs := h.bounded s (List.mem_filter.1 hs).1
  timed s hs := h.timed s (List.mem_filter.1 hs).1

/-- A row with the stored time of an instant is stamped when it is added. -/
theorem stamped_insert (h : t.Stamped) {time : Timestamp} (htime : time.stored? = some r.createdAt)
    (hinsert : t.insert r = .ok t') : t'.Stamped where
  bounded := Table.bounded_insert hinsert h.bounded
  timed := Table.forall_mem_insert hinsert h.timed ⟨time, htime⟩

/-- What a call makes of a table leaves the rows stamped. -/
theorem stamped_change (h : t.Stamped) {c : Call} (hchange : Change t c t') : t'.Stamped := by
  cases hchange with
  | left => exact h
  | erased _ picks => exact stamped_erase h picks
  | written w stored t' time inserted => exact stamped_insert (stamped_erase h _) time inserted

/-- After any calls on an empty store, its rows are stamped. -/
theorem stamped_run (calls : List Call) : ∃ t, run calls = ⟨some t⟩ ∧ t.Stamped :=
  run_invariant ⟨nofun, nofun⟩ fun _ _ _ _ h hchange => stamped_change h hchange

/-! ## The row on top -/

/-- The row on top leads the listing. -/
theorem head?_listing_of_tops (h : r.Tops rows) : (Sorting.sortBy Row.newerFirst rows).head? = some r := by
  refine Sorting.head?_sortBy newerFirst_total newerFirst_trans h.mem ?_
  intro s hs hfirst
  rcases h.others s hs with heq | ⟨hle, hlt⟩
  · exact heq
  · simp only [Row.newerFirst, Bool.or_eq_true, Bool.and_eq_true, decide_eq_true_eq] at hfirst
    rcases hfirst with hlate | ⟨-, hseq⟩
    · exact absurd hle (not_le.2 hlate)
    · omega

/-- The run key of the row on top has its standing. -/
theorem standing_of_tops (h : r.Tops rows) : standing rows r.runKey = ⟨r.runKey, r.createdAt, r.seq⟩ := by
  have hkey : r.runKey ∈ keySet rows := List.mem_toFinset.2 (List.mem_map_of_mem h.mem)
  obtain ⟨latest, hlatest, last, hlast, hstanding, hgreatest⟩ := exists_standing hkey
  obtain ⟨hlate, hseq⟩ := hgreatest r (mem_ownRows.2 ⟨h.mem, rfl⟩)
  have htime : latest.createdAt = r.createdAt := by
    rcases h.others latest (mem_ownRows.1 hlatest).1 with heq | ⟨hle, -⟩
    · rw [heq]
    · exact le_antisymm hle hlate
  have hnumber : last.seq = r.seq := by
    rcases h.others last (mem_ownRows.1 hlast).1 with heq | ⟨-, hlt⟩
    · rw [heq]
    · omega
  rw [hstanding, htime, hnumber]

/-- The run key of the row on top leads the ranking. -/
theorem head?_ranking_of_tops (h : r.Tops rows) : (ranking rows).head? = some r.runKey := by
  have hkey : r.runKey ∈ runKeys rows := by
    rw [← List.mem_toFinset, toFinset_runKeys]
    exact List.mem_toFinset.2 (List.mem_map_of_mem h.mem)
  have hhead : (Sorting.sortBy Standing.before ((runKeys rows).map (standing rows))).head? =
      some (standing rows r.runKey) := by
    refine Sorting.head?_sortBy before_total before_trans (List.mem_map_of_mem hkey) ?_
    intro st hst hfirst
    obtain ⟨k, hk, rfl⟩ := List.mem_map.1 hst
    rw [← List.mem_toFinset, toFinset_runKeys] at hk
    obtain ⟨latest, hlatest, last, hlast, hstanding, -⟩ := exists_standing hk
    rw [standing_of_tops h, hstanding] at hfirst ⊢
    simp only [Standing.before, Bool.or_eq_true, Bool.and_eq_true, decide_eq_true_eq] at hfirst
    obtain ⟨hlatestRow, -⟩ := mem_ownRows.1 hlatest
    obtain ⟨hlastRow, hlastKey⟩ := mem_ownRows.1 hlast
    have hle : latest.createdAt ≤ r.createdAt := by
      rcases h.others latest hlatestRow with heq | ⟨hle, -⟩
      · rw [heq]
      · exact hle
    rcases hfirst with hlate | ⟨htime, hseq⟩
    · exact absurd hle (not_le.2 hlate)
    · rcases h.others last hlastRow with heq | ⟨-, hlt⟩
      · rw [← hlastKey, htime, heq]
      · omega
  rw [ranking, List.head?_map, hhead]
  rfl

/-- With the row on top, all rows of its run key are retained. -/
theorem mem_retained_of_tops (h : r.Tops rows) {retention : Int} (hretention : 0 < retention) {s : Row} (hs : s ∈ rows)
    (hkey : s.runKey = r.runKey) : s ∈ retained retention rows := by
  have hpos : ¬retention ≤ 0 := Int.not_le.2 hretention
  rw [retained, if_neg hpos, List.mem_filter]
  refine ⟨hs, ?_⟩
  obtain ⟨n, hn⟩ : ∃ n, retention.toNat = n + 1 := ⟨retention.toNat - 1, by omega⟩
  obtain ⟨tail, htail⟩ : ∃ tail, ranking rows = r.runKey :: tail := by
    have hhead := head?_ranking_of_tops h
    cases hranking : ranking rows with
    | nil =>
      rw [hranking] at hhead
      cases hhead
    | cons k tail =>
      rw [hranking, List.head?_cons, Option.some.injEq] at hhead
      exact ⟨tail, by rw [hhead]⟩
  rw [htail, hn, List.take_succ_cons, hkey, List.contains_iff_mem]
  exact List.mem_cons_self

/-- Only some of the rows are retained. -/
theorem mem_of_mem_retained {retention : Int} {s : Row} (hs : s ∈ retained retention rows) : s ∈ rows := by
  unfold retained at hs
  split at hs
  · exact hs
  · exact (List.mem_filter.1 hs).1

/-- The row on top stays on top of what is retained. -/
theorem tops_retained (h : r.Tops rows) {retention : Int} (hretention : 0 < retention) :
    r.Tops (retained retention rows) where
  mem := mem_retained_of_tops h hretention h.mem rfl
  others s hs := h.others s (mem_of_mem_retained hs)

/-- No more run keys are retained than asked for. -/
theorem card_keySet_retained {retention : Int} (hretention : 0 < retention) (rows : List Row) :
    ((keySet (retained retention rows)).card : Int) ≤ retention := by
  have hpos : ¬retention ≤ 0 := Int.not_le.2 hretention
  have hsub : keySet (retained retention rows) ⊆ ((ranking rows).take retention.toNat).toFinset := by
    intro k hk
    obtain ⟨s, hs, rfl⟩ := List.mem_map.1 (List.mem_toFinset.1 hk)
    rw [retained, if_neg hpos] at hs
    exact List.mem_toFinset.2 (List.contains_iff_mem.1 (List.mem_filter.1 hs).2)
  have hcard := (Finset.card_le_card hsub).trans (List.toFinset_card_le _)
  have htake := List.length_take_le retention.toNat (ranking rows)
  omega

/-- A new row as late as all rows of its task is on top of them. -/
theorem tops_groupWith (ht : t.Stamped) {identity : Run} (hseq : r.seq = t.next)
    (hlate : ∀ s ∈ t.group identity.workflow identity.task, s.createdAt ≤ r.createdAt) :
    r.Tops (t.groupWith identity r) where
  mem := List.mem_append_right _ (List.mem_singleton.2 rfl)
  others s hs := by
    rcases List.mem_append.1 hs with hold | hnew
    · have hgroup := (List.mem_filter.1 hold).1
      have hlt := ht.bounded s (List.mem_filter.1 hgroup).1
      rw [← hseq] at hlt
      exact .inr ⟨hlate s hgroup, hlt⟩
    · exact .inl (List.mem_singleton.1 hnew)

/-! ## Listings -/

/-- A listing fails exactly when one of its rows cannot be decoded. -/
theorem list_fails_iff_mem_listing {workflow : String} {task : Option String} :
    (∃ e, Store.list ⟨some t⟩ workflow task none = .error e) ↔
      ∃ s ∈ t.listing workflow task, ∃ fault, snapshotOf s = .error fault := by
  rw [list_eq_mapM, mapM_fails_iff]
  simp only [mapError_fails_iff]

/-- The listing of a task fails exactly when one of the rows of the task cannot be decoded. -/
theorem list_fails_iff {workflow task : String} : (∃ e, Store.list ⟨some t⟩ workflow (some task) none = .error e) ↔
    ∃ s ∈ t.group workflow task, ∃ fault, snapshotOf s = .error fault := by
  rw [list_fails_iff_mem_listing]
  simp only [(perm_listing t workflow task).mem_iff]

/-- A listing that does not fail begins with the snapshot of its first row. -/
theorem head_of_list {workflow task : String} (hhead : (t.listing workflow (some task)).head? = some r)
    {shown : List Snapshot} (h : Store.list ⟨some t⟩ workflow (some task) none = .ok shown) :
    ∃ snapshot rest, shown = snapshot :: rest ∧ snapshotOf r = .ok snapshot := by
  rw [list_eq_mapM] at h
  cases hrows : t.listing workflow (some task) with
  | nil =>
    rw [hrows] at hhead
    cases hhead
  | cons first others =>
    rw [hrows, List.head?_cons, Option.some.injEq] at hhead
    rw [hrows] at h
    obtain ⟨snapshot, rest, hfirst, -, heq⟩ := mapM_cons_eq_ok h
    exact ⟨snapshot, rest, heq, hhead ▸ mapError_eq_ok hfirst⟩

/-! ## Rows that cannot be decoded -/

/-- A row whose fields cannot be read cannot be decoded. -/
theorem snapshotOf_fails {fault : ColumnFault} (h : fieldsOfText r.fields = .error fault) :
    ∃ f, snapshotOf r = .error f := by
  unfold snapshotOf readColumn
  rw [h]
  cases (SnapshotId.ofText r.id).mapError RowFault.id with
  | error f => exact ⟨f, rfl⟩
  | ok id =>
    cases mapIndexOf r.mapIndex with
    | error f => exact ⟨f, rfl⟩
    | ok mapIndex => exact ⟨_, rfl⟩

/-- Sequences in one another, with nothing in the last one. -/
def nested : Nat → Rendered
  | 0 => .null
  | n + 1 => .sequence [nested n]

/-- Sequences in one another are plain and have as many levels. -/
theorem nested_spec (n : Nat) : (nested n).toJson.Plain ∧ (nested n).toJson.nesting = n := by
  induction n with
  | zero => exact ⟨by simp only [nested, Rendered.toJson, Json.Plain], rfl⟩
  | succ n ih =>
    obtain ⟨hplain, hnesting⟩ := ih
    constructor
    · simp only [nested, Rendered.toJson, Rendered.itemsToJson, Json.Plain]
      exact ⟨hplain, trivial⟩
    · simp only [nested, Rendered.toJson, Rendered.itemsToJson, Json.nesting, Json.nestingItems, hnesting, Nat.max_zero]

/-- Fields with as many sequences in one another as may be read are stored, and not read back. -/
theorem fieldsOfText_nested (name : String) :
    ∃ fault, fieldsOfText (fieldsText [(name, nested Json.deepest)]) = .error fault := by
  obtain ⟨hplain, hnesting⟩ := nested_spec Json.deepest
  have hfields : (Fields.toJson [(name, nested Json.deepest)]).Plain := by
    simp only [Fields.toJson, Rendered.entriesToJson, Json.Plain]
    exact ⟨List.pairwise_singleton _ _, hplain, trivial⟩
  have hdeep : Json.deepest < (Fields.toJson [(name, nested Json.deepest)]).nesting := by
    simp only [Fields.toJson, Rendered.entriesToJson, Json.nesting, Json.nestingMembers, hnesting, Nat.max_zero]
    exact Nat.lt_succ_self _
  obtain ⟨e, he⟩ := Json.read_compact_fails hfields.legible hdeep
  unfold fieldsOfText fieldsText
  rw [he]
  exact ⟨_, rfl⟩

end SurvivalAux

end Store

namespace Recorder

open Store (Table Row)
open Store.SurvivalAux

/-- A recorded snapshot survives its own retention. After any calls on an empty store, let a run be recorded
with some run keys to be kept, at an instant that no row of its task was created after, cut to the microsecond.
Then the identity has its row, which leads the listing of the task; the listing fails exactly when some row in
it cannot be decoded, and begins with the snapshot of that row otherwise. All rows of the same run key are still
there, and there are no more run keys than are to be kept. -/
theorem record_survives (calls : List Store.Call) {r : Recorder} (hretention : 0 < r.settings.retention)
    {id : SnapshotId} {now : Timestamp} (hera : now.InEra) {identity : Run} {owner : Owner}
    {builder : PodSpecSource} {recording : Recording} {after : Store}
    (hrecord : r.record (Store.run calls) id now identity owner builder = .ok (recording, after))
    (hlatest : ∀ row, (Store.run calls).HasRow row → row.isOfTask identity.workflow identity.task = true →
      ∀ time : Timestamp, time.stored? = some row.createdAt → time.micros ≤ now.micros) :
    ∃ t t' stored row, Store.run calls = ⟨some t⟩ ∧ after = ⟨some t'⟩ ∧ now.stored? = some stored ∧
      row = { Store.rowOf recording.snapshot stored with seq := t.next } ∧ recording.snapshot.identity = identity ∧
      t'.find? identity = some row ∧ (t'.listing identity.workflow (some identity.task)).head? = some row ∧
      ((∃ e, after.list identity.workflow (some identity.task) none = .error e) ↔
        ∃ other ∈ t'.group identity.workflow identity.task, ∃ fault, Store.snapshotOf other = .error fault) ∧
      (∀ shown, after.list identity.workflow (some identity.task) none = .ok shown →
        ∃ snapshot rest, shown = snapshot :: rest ∧ Store.snapshotOf row = .ok snapshot) ∧
      (∀ other ∈ t.group identity.workflow identity.task, other.runKey = identity.runKey → ¬other.isOf identity = true →
        other ∈ t'.rows) ∧
      ((Store.keySet (t'.group identity.workflow identity.task)).card : Int) ≤ r.settings.retention := by
  obtain ⟨t, hrun, ht⟩ := stamped_run calls
  rw [hrun] at hrecord hlatest
  obtain ⟨fields, podSpec, stored, t', -, -, hstored, hsnapshot, rfl, -, hgroup, -⟩ := tables_of_record hrecord
  have hidentity : recording.snapshot.identity = identity := by rw [hsnapshot]
  have hof := Table.isOf_rowOf recording.snapshot stored
  rw [hidentity] at hof
  have hlate : ∀ s ∈ t.group identity.workflow identity.task, s.createdAt ≤ stored := by
    intro s hs
    obtain ⟨hmem, htask⟩ := List.mem_filter.1 hs
    obtain ⟨time, htime⟩ := ht.timed s hmem
    exact Timestamp.stored_le hera htime hstored (hlatest s ⟨t, rfl, hmem⟩ htask time htime)
  have htops : Row.Tops { Store.rowOf recording.snapshot stored with seq := t.next }
      (t.groupWith identity { Store.rowOf recording.snapshot stored with seq := t.next }) :=
    tops_groupWith ht rfl hlate
  have hleft := tops_retained htops hretention
  rw [← hgroup] at hleft
  have hhead : (t'.listing identity.workflow (some identity.task)).head? =
      some { Store.rowOf recording.snapshot stored with seq := t.next } := head?_listing_of_tops hleft
  refine ⟨t, t', stored, _, hrun, rfl, hstored, rfl, hidentity, ?_, hhead, list_fails_iff, ?_, ?_, ?_⟩
  · refine Table.find?_eq_some (List.mem_filter.1 hleft.mem).1 hof ?_
    intro s hs hsof
    have hmem : s ∈ t'.group identity.workflow identity.task := List.mem_filter.2 ⟨hs, Table.isOfTask_of_isOf hsof⟩
    rw [hgroup] at hmem
    rcases List.mem_append.1 (mem_of_mem_retained hmem) with hold | hnew
    · have hother := (List.mem_filter.1 hold).2
      rw [hsof] at hother
      cases hother
    · exact List.mem_singleton.1 hnew
  · intro shown h
    exact head_of_list hhead h
  · intro other hother hkey hnot
    have hmem : other ∈ t.groupWith identity { Store.rowOf recording.snapshot stored with seq := t.next } := by
      refine List.mem_append_left _ (List.mem_filter.2 ⟨hother, ?_⟩)
      rw [Bool.eq_false_iff.2 hnot]
      rfl
    have hretained := mem_retained_of_tops htops hretention hmem (by rw [hkey, ← hidentity]; rfl)
    rw [← hgroup] at hretained
    exact (List.mem_filter.1 hretained).1
  · rw [hgroup]
    exact card_keySet_retained hretention _

/-- Three snapshots of two run keys, taken at the same instant. -/
def threeAtOnce : List Store.Call :=
  [.write ⟨⟨1⟩, ⟨"w", "t", "a", none⟩, [], none, ⟨0, 0⟩⟩, .write ⟨⟨2⟩, ⟨"w", "t", "a", some 0⟩, [], none, ⟨0, 0⟩⟩,
    .write ⟨⟨3⟩, ⟨"w", "t", "b", none⟩, [], none, ⟨0, 0⟩⟩]

/-- A snapshot is taken again at the instant of all others, with one run key to be kept. It leads the listing,
and the other run key is gone. -/
theorem record_survives_of_ties : ∃ recording after t' row,
    (plain 1).record (Store.run threeAtOnce) ⟨4⟩ ⟨0, 0⟩ ⟨"w", "t", "a", none⟩
      ⟨"K", ["f"], [], [("f", .text "x")]⟩ .none = .ok (recording, after) ∧
    after = ⟨some t'⟩ ∧ t'.find? ⟨"w", "t", "a", none⟩ = some row ∧ (t'.listing "w" (some "t")).head? = some row ∧
    ((Store.keySet (t'.group "w" "t")).card : Int) ≤ 1 := by
  obtain ⟨recording, after, hrecord⟩ : ∃ recording after, (plain 1).record (Store.run threeAtOnce) ⟨4⟩ ⟨0, 0⟩
      ⟨"w", "t", "a", none⟩ ⟨"K", ["f"], [], [("f", .text "x")]⟩ .none = .ok (recording, after) := ⟨_, _, rfl⟩
  have hera : (⟨0, 0⟩ : Timestamp).InEra := by decide
  have hstored : ∃ t, Store.run threeAtOnce = ⟨some t⟩ ∧
      ∀ row ∈ t.rows, (⟨0, 0⟩ : Timestamp).stored? = some row.createdAt :=
    ⟨_, rfl, by decide +kernel⟩
  obtain ⟨u, hu, hall⟩ := hstored
  obtain ⟨t, t', stored, row, -, hafter, -, -, -, hfind, hhead, -, -, -, hcard⟩ :=
    record_survives threeAtOnce (show 0 < (plain 1).settings.retention by decide) hera hrecord (by
      rintro row ⟨v, hv, hrow⟩ - time htime
      rw [hu] at hv
      cases hv
      exact le_of_eq (Timestamp.micros_eq_of_stored?_eq hera htime (hall row hrow)))
  exact ⟨recording, after, t', row, hrecord, hafter, hfind, hhead, hcard⟩

/-- A snapshot whose fields cannot be read back. -/
def unreadable : List Store.Call :=
  [.write ⟨⟨1⟩, ⟨"w", "t", "a", none⟩, [("deep", nested Json.deepest)], none, ⟨0, 0⟩⟩]

/-- A run is recorded later than all others of its task, with enough run keys to be kept, and the listing of the
task fails: another row of the task cannot be decoded, since fields are stored that are nested more deeply than
is read. -/
theorem record_behind_unreadable : ∃ recording after,
    (plain 2).record (Store.run unreadable) ⟨2⟩ ⟨1000000000, 0⟩ ⟨"w", "t", "b", none⟩
      ⟨"K", ["f"], [], [("f", .text "x")]⟩ .none = .ok (recording, after) ∧
    0 < (plain 2).settings.retention ∧ (⟨1000000000, 0⟩ : Timestamp).InEra ∧
    (∀ row, (Store.run unreadable).HasRow row → ∀ time : Timestamp, time.stored? = some row.createdAt →
      time.micros ≤ (⟨1000000000, 0⟩ : Timestamp).micros) ∧
    ∃ e, after.list "w" (some "t") none = .error e := by
  obtain ⟨recording, t', hrecord, row, hrow, hfields⟩ : ∃ recording t',
      (plain 2).record (Store.run unreadable) ⟨2⟩ ⟨1000000000, 0⟩ ⟨"w", "t", "b", none⟩
        ⟨"K", ["f"], [], [("f", .text "x")]⟩ .none = .ok (recording, ⟨some t'⟩) ∧
      ∃ row ∈ t'.group "w" "t", row.fields = Store.fieldsText [("deep", nested Json.deepest)] :=
    ⟨_, _, rfl, _, List.mem_cons_self, rfl⟩
  refine ⟨recording, _, hrecord, by decide, by decide, ?_, ?_⟩
  · rintro row ⟨t, ht, hrow⟩ time htime
    have hone : ∃ r, t.rows = [r] ∧ (⟨0, 0⟩ : Timestamp).stored? = some r.createdAt := by
      cases ht
      exact ⟨_, rfl, rfl⟩
    obtain ⟨r, hrows, hstored⟩ := hone
    rw [hrows, List.mem_singleton] at hrow
    rw [hrow] at htime
    rw [Timestamp.micros_eq_of_stored?_eq (by decide) htime hstored]
    decide
  · obtain ⟨fault, hfault⟩ := fieldsOfText_nested "deep"
    rw [← hfields] at hfault
    exact list_fails_iff.2 ⟨row, hrow, snapshotOf_fails hfault⟩

end Recorder

end SnapshotLedger
