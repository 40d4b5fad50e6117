import SnapshotLedger.Proofs.Store.Reading

/-!
# Independent writes commute

Writes of different identities at different instants, in whatever order, lead to tables that hold the same rows
up to the numbers and the identifiers of the rows (`Table.Alike`): each write adds its own row and takes none
away (`map_content_step`). The numbers of such tables decide nothing. Listings are already in order by the
stored times, all of which differ (`map_content_listing`), and a run key is higher than another exactly when its
latest row is later (`height_lt_iff`), so that a prune removes the same rows (`alike_prune`).
-/

namespace SnapshotLedger

/-- The snapshot without its identifier. -/
def Snapshot.unnamed (s : Snapshot) : Snapshot := { s with id := ⟨0⟩ }

namespace Store

/-- The row without its number and its identifier. -/
def Row.content (r : Row) : Row := { r with seq := 0, id := "" }

/-- The write without its identifier. -/
def Writing.unnamed (w : Writing) : Writing := { w with id := ⟨0⟩ }

/-- The tables hold the same rows, numbers and identifiers aside. -/
def Table.Alike (t t' : Table) : Prop := (t.rows.map Row.content).Perm (t'.rows.map Row.content)

/-- No two rows have the same stored time, and each row has an identifier. -/
structure Table.Apart (t : Table) : Prop where
  sound : t.Sound
  times : t.rows.Pairwise fun r s => r.createdAt ≠ s.createdAt
  named : ∀ r ∈ t.rows, ∃ id : SnapshotId, r.id = id.text

/-- The instant of the latest row of a run key that has some. -/
def latest (rows : List Row) (runKey : String) : Int := ((ownRows rows runKey).map Row.micros).max?.getD 0

/-- The row of a write at a stored time. -/
def Writing.row (w : Writing) (stored : String) : Row :=
  rowOf ⟨w.id, w.identity, w.fields, w.podSpec, w.createdAt.toUtc⟩ stored

/-- What a write adds to a table that has no row of its identity; nothing when the write fails. -/
def Writing.content? (w : Writing) : Option Row :=
  match w.identity.blankPart?, w.createdAt.stored? with
  | none, some stored => if failedCheck? (w.row stored) = none then some (w.row stored).content else none
  | _, _ => none

namespace CommutingAux

open RetentionAux RecencyAux RefinementAux ReadingAux

variable {t t' : Table} {r s : Row}

/-! ## Contents of rows -/

/-- Rows of the same content have the same stored time, and are of the same identity and the same run key. -/
theorem content_eq (h : r.content = s.content) :
    r.createdAt = s.createdAt ∧ r.runKey = s.runKey ∧ ∀ i, r.isOf i = s.isOf i := by
  simp only [Row.content, Row.mk.injEq, true_and] at h
  obtain ⟨hworkflow, htask, hrunKey, hmapIndex, -, -, hcreatedAt⟩ := h
  refine ⟨hcreatedAt, hrunKey, ?_⟩
  intro i
  rw [Row.isOf, Row.isOf, hworkflow, htask, hrunKey, hmapIndex]

/-- Rows of the same content show the same snapshot, or cannot be decoded for the same reason. -/
theorem map_unnamed_snapshotOf (h : r.content = s.content) {id id' : SnapshotId} (hr : r.id = id.text)
    (hs : s.id = id'.text) :
    (snapshotOf r).map Snapshot.unnamed = (snapshotOf s).map Snapshot.unnamed := by
  obtain ⟨seq, idText, workflow, task, runKey, mapIndex, fields, podSpec, createdAt⟩ := r
  obtain ⟨seq', idText', workflow', task', runKey', mapIndex', fields', podSpec', createdAt'⟩ := s
  simp only [Row.content, Row.mk.injEq, true_and] at h
  obtain ⟨rfl, rfl, rfl, rfl, rfl, rfl, rfl⟩ := h
  simp only at hr hs
  subst hr hs
  simp only [snapshotOf, SnapshotId.ofText_text, Except.mapError, bind, Except.bind]
  cases mapIndexOf mapIndex with
  | error fault => rfl
  | ok index =>
    simp only
    cases readColumn .renderedFields fields with
    | error fault => rfl
    | ok fields =>
      simp only
      cases podSpec with
      | none =>
        simp only
        cases Timestamp.ofStored? createdAt <;> rfl
      | some text =>
        simp only
        cases (readColumn .podSpec text).map some with
        | error fault => rfl
        | ok podSpec =>
          simp only
          cases Timestamp.ofStored? createdAt <;> rfl

/-- What holds of rows by their content picks rows of the same contents. -/
theorem perm_filter_content {rows rows' : List Row} (h : (rows.map Row.content).Perm (rows'.map Row.content))
    {p : Row → Bool} (hp : ∀ r : Row, p r.content = p r) :
    ((rows.filter p).map Row.content).Perm ((rows'.filter p).map Row.content) := by
  have hfilter : ∀ rows : List Row, (rows.filter p).map Row.content = (rows.map Row.content).filter p := by
    intro rows
    rw [List.filter_map]
    congr 1
    refine List.filter_congr ?_
    intro r _
    exact (hp r).symm
  rw [hfilter, hfilter]
  exact h.filter p

/-- Each row of a table has one of the same content in an alike table. -/
theorem exists_of_alike (h : t.Alike t') (hr : r ∈ t.rows) : ∃ s ∈ t'.rows, s.content = r.content :=
  List.mem_map.1 (h.mem_iff.1 (List.mem_map_of_mem hr))

/-- In alike tables, the rows found for an identity have the same content. -/
theorem find?_alike (ht : t.Sound) (ht' : t'.Sound) (h : t.Alike t') (i : Run) :
    (t.find? i).map Row.content = (t'.find? i).map Row.content := by
  have hone : ∀ {u u' : Table} {r : Row}, u.Sound → u'.Sound → u.Alike u' → u.find? i = some r →
      ∃ s, u'.find? i = some s ∧ s.content = r.content := by
    intro u u' r hu hu' halike hfind
    obtain ⟨hr, hof⟩ := hu.find?_eq_some_iff.1 hfind
    obtain ⟨s, hs, hcontent⟩ := exists_of_alike halike hr
    refine ⟨s, hu'.find?_eq_some_iff.2 ⟨hs, ?_⟩, hcontent⟩
    rw [(content_eq hcontent).2.2 i, hof]
  cases hfind : t.find? i with
  | some r =>
    obtain ⟨s, hs, hcontent⟩ := hone ht ht' h hfind
    rw [hs, Option.map_some, Option.map_some, hcontent]
  | none =>
    cases hfind' : t'.find? i with
    | none => rfl
    | some s =>
      obtain ⟨r, hr, -⟩ := hone ht' ht h.symm hfind'
      rw [hfind] at hr
      cases hr

/-! ## Reading -/

/-- Alike tables show the same snapshot of each identity. -/
theorem get?_alike (ht : t.Apart) (ht' : t'.Apart) (h : t.Alike t') (i : Run) :
    (get? ⟨some t⟩ i).map (Option.map Snapshot.unnamed) = (get? ⟨some t'⟩ i).map (Option.map Snapshot.unnamed) := by
  have hfind := find?_alike ht.sound ht'.sound h i
  have hshown :
      ∀ x : Except RowFault Snapshot, ((x.mapError (Error.row .loading)).map some).map (Option.map Snapshot.unnamed) =
        ((x.map Snapshot.unnamed).mapError (Error.row .loading)).map some := by
    intro x
    cases x <;> rfl
  cases hr : t.find? i with
  | none =>
    rw [hr, Option.map_none, eq_comm, Option.map_eq_none_iff] at hfind
    simp only [get?, tableFor, bind, Except.bind, hr, hfind]
  | some r =>
    rw [hr, Option.map_some, eq_comm, Option.map_eq_some_iff] at hfind
    obtain ⟨s, hs, hcontent⟩ := hfind
    obtain ⟨id, hid⟩ := ht.named r (ht.sound.find?_eq_some_iff.1 hr).1
    obtain ⟨id', hid'⟩ := ht'.named s (ht'.sound.find?_eq_some_iff.1 hs).1
    simp only [get?, tableFor, bind, Except.bind, hr, hs]
    rw [hshown, hshown, map_unnamed_snapshotOf hcontent hid' hid]

/-- No two rows of a listing have the same stored time, so each is later than those behind it. -/
theorem pairwise_createdAt_listing (ht : t.Apart) (workflow : String) (task : Option String) :
    (t.listing workflow task).Pairwise fun r s => s.createdAt < r.createdAt := by
  refine (pairwise_newerFirst_listing ht.times workflow task).imp ?_
  rintro r s ⟨hfirst, hne⟩
  simp only [Row.newerFirst, Bool.or_eq_true, Bool.and_eq_true, decide_eq_true_eq] at hfirst
  rcases hfirst with hlt | ⟨heq, -⟩
  · exact hlt
  · exact absurd heq hne

/-- Listings of alike tables show rows of the same content, one after the other. -/
theorem map_content_listing (ht : t.Apart) (ht' : t'.Apart) (h : t.Alike t') (workflow : String)
    (task : Option String) :
    (t.listing workflow task).map Row.content = (t'.listing workflow task).map Row.content := by
  have hperm : ((t.listing workflow task).map Row.content).Perm ((t'.listing workflow task).map Row.content) := by
    refine ((perm_listing_filter t workflow task).map _).trans
      (.trans (perm_filter_content h ?_) ((perm_listing_filter t' workflow task).map _).symm)
    intro r
    rfl
  have hsorted : ∀ {u : Table}, u.Apart →
      ((u.listing workflow task).map Row.content).Pairwise fun r s => s.createdAt < r.createdAt := by
    intro u hu
    exact List.pairwise_map.2 (pairwise_createdAt_listing hu workflow task)
  refine hperm.eq_of_pairwise ?_ (hsorted ht) (hsorted ht')
  intro r s _ _ hrs hsr
  exact absurd hrs (String.lt_asymm hsr)

/-- Rows of the same content, one after the other, are decoded alike. -/
theorem mapM_alike {rows rows' : List Row} (h : rows.map Row.content = rows'.map Row.content)
    (hnamed : ∀ r ∈ rows, ∃ id : SnapshotId, r.id = id.text)
    (hnamed' : ∀ r ∈ rows', ∃ id : SnapshotId, r.id = id.text) :
    (rows.mapM fun r => (snapshotOf r).mapError (Error.row .decodingRow)).map (List.map Snapshot.unnamed) =
      (rows'.mapM fun r => (snapshotOf r).mapError (Error.row .decodingRow)).map (List.map Snapshot.unnamed) := by
  have hshown : ∀ r, ((snapshotOf r).mapError (Error.row .decodingRow)).map Snapshot.unnamed =
      ((snapshotOf r).map Snapshot.unnamed).mapError (Error.row .decodingRow) := by
    intro r
    cases snapshotOf r <;> rfl
  rw [map_mapM, map_mapM]
  simp only [hshown]
  induction rows generalizing rows' with
  | nil =>
    rw [List.map_nil, eq_comm, List.map_eq_nil_iff] at h
    rw [h]
  | cons r rows ih =>
    cases rows' with
    | nil => cases h
    | cons s rows' =>
      obtain ⟨hfirst, hrest⟩ := List.cons.inj h
      obtain ⟨id, hid⟩ := hnamed r List.mem_cons_self
      obtain ⟨id', hid'⟩ := hnamed' s List.mem_cons_self
      rw [List.mapM_cons, List.mapM_cons, map_unnamed_snapshotOf hfirst hid hid',
        ih hrest (fun u hu => hnamed u (List.mem_cons_of_mem _ hu)) fun u hu => hnamed' u (List.mem_cons_of_mem _ hu)]

/-- Alike tables have the same listings, with whatever limit. -/
theorem list_alike (ht : t.Apart) (ht' : t'.Apart) (h : t.Alike t') (workflow : String) (task : Option String)
    (limit : Option Nat) :
    (list ⟨some t⟩ workflow task limit).map (List.map Snapshot.unnamed) =
      (list ⟨some t'⟩ workflow task limit).map (List.map Snapshot.unnamed) := by
  have hlisting := map_content_listing ht ht' h workflow task
  have hnamed : ∀ {u : Table}, u.Apart → ∀ r ∈ u.listing workflow task, ∃ id : SnapshotId, r.id = id.text := by
    intro u hu r hr
    exact hu.named r (List.mem_filter.1 ((perm_listing_filter u workflow task).mem_iff.1 hr)).1
  cases limit with
  | none => exact mapM_alike hlisting (hnamed ht) (hnamed ht')
  | some n =>
    by_cases hlimit : greatestLimit < n
    · simp only [list, tableFor, bind, Except.bind, hlimit, if_true]
    · have htake : ((t.listing workflow task).take n).map Row.content =
        ((t'.listing workflow task).take n).map Row.content := by
        rw [List.map_take, List.map_take, hlisting]
      have hrows := mapM_alike htake (fun r hr => hnamed ht r (List.mem_of_mem_take hr)) fun r hr =>
        hnamed ht' r (List.mem_of_mem_take hr)
      simpa only [list, tableFor, bind, Except.bind, hlimit, if_false] using hrows

/-! ## Pruning -/

/-- The latest row of a run key is one of its rows. -/
theorem exists_latest {rows : List Row} {k : String} (hk : k ∈ keySet rows) :
    ∃ r ∈ ownRows rows k, r.micros = latest rows k := by
  obtain ⟨r, hr, hkey⟩ := List.mem_map.1 (List.mem_toFinset.1 hk)
  have hown : r.micros ∈ (ownRows rows k).map Row.micros := List.mem_map_of_mem (mem_ownRows.2 ⟨hr, hkey⟩)
  cases hmax : ((ownRows rows k).map Row.micros).max? with
  | none =>
    rw [List.max?_eq_none_iff.1 hmax] at hown
    exact absurd hown List.not_mem_nil
  | some m =>
    obtain ⟨s, hs, heq⟩ := List.mem_map.1 (List.max?_eq_some_iff.1 hmax).1
    refine ⟨s, hs, ?_⟩
    rw [latest, hmax, Option.getD_some, heq]

/-- A run key is higher than another exactly when its latest row is later, if no two rows have the same stored time. -/
theorem height_lt_iff {rows : List Row} (hdated : ∀ r ∈ rows, r.Dated)
    (htimes : rows.Pairwise fun r s => r.createdAt ≠ s.createdAt) {a b : String} (ha : a ∈ keySet rows)
    (hb : b ∈ keySet rows) :
    height rows a < height rows b ↔ latest rows a < latest rows b := by
  have hheight : ∀ k, height rows k = toLex (latest rows k, ((ownRows rows k).map Row.seq).max?.getD 0) := fun _ => rfl
  rw [hheight, hheight, Prod.Lex.toLex_lt_toLex]
  constructor
  · rintro (hlt | ⟨heq, hseq⟩)
    · exact hlt
    · -- one instant has one row, and that has one run key
      obtain ⟨r, hown, hrLatest⟩ := exists_latest ha
      obtain ⟨s, hown', hsLatest⟩ := exists_latest hb
      obtain ⟨hr, hkey⟩ := mem_ownRows.1 hown
      obtain ⟨hs, hkey'⟩ := mem_ownRows.1 hown'
      have hsame : r = s := by
        by_contra hne
        have hsymm : Std.Symm fun r s : Row => r.createdAt ≠ s.createdAt := ⟨fun _ _ => Ne.symm⟩
        refine htimes.forall hr hs hne ((createdAt_eq_iff (hdated r hr) (hdated s hs)).2 ?_)
        rw [hrLatest, hsLatest]
        exact heq
      rw [← hkey, ← hkey', hsame] at hseq
      exact absurd hseq (lt_irrefl _)
  · exact fun hlt => .inl hlt

/-- The latest row of a run key is as late among rows of the same contents. -/
theorem latest_alike {rows rows' : List Row} (h : (rows.map Row.content).Perm (rows'.map Row.content)) (k : String) :
    latest rows k = latest rows' k := by
  have hmicros : ∀ rows : List Row, (ownRows rows k).map Row.micros =
      ((ownRows rows k).map Row.content).map Row.micros := by
    intro rows
    rw [List.map_map]
    rfl
  have hperm : ((ownRows rows k).map Row.micros).Perm ((ownRows rows' k).map Row.micros) := by
    rw [hmicros, hmicros]
    exact (perm_filter_content h fun _ => rfl).map _
  have hmax : ((ownRows rows k).map Row.micros).max? = ((ownRows rows' k).map Row.micros).max? := by
    refine Option.ext fun m => ?_
    rw [List.max?_eq_some_iff, List.max?_eq_some_iff, hperm.mem_iff]
    simp only [hperm.mem_iff]
  rw [latest, latest, hmax]

/-- A run key has the same rank among rows of the same contents, if no two of them have the same stored time. -/
theorem rank_alike {rows rows' : List Row} (h : (rows.map Row.content).Perm (rows'.map Row.content))
    (hdated : ∀ r ∈ rows, r.Dated) (hdated' : ∀ r ∈ rows', r.Dated)
    (htimes : rows.Pairwise fun r s => r.createdAt ≠ s.createdAt)
    (htimes' : rows'.Pairwise fun r s => r.createdAt ≠ s.createdAt) {k : String} (hk : k ∈ keySet rows) :
    rank rows k = rank rows' k := by
  have hkeys : keySet rows = keySet rows' := by
    have hrunKey : ∀ rows : List Row, rows.map Row.runKey = (rows.map Row.content).map Row.runKey := by
      intro rows
      rw [List.map_map]
      rfl
    rw [keySet, keySet, hrunKey rows, hrunKey rows']
    exact List.toFinset_eq_of_perm _ _ (h.map _)
  rw [rank, rank, ← hkeys]
  congr 1
  refine Finset.filter_congr ?_
  intro a ha
  rw [height_lt_iff hdated htimes hk ha, height_lt_iff hdated' htimes' (hkeys ▸ hk) (hkeys ▸ ha),
    latest_alike h, latest_alike h]

/-- Removing rows leaves the others apart. -/
theorem apart_erase (h : t.Apart) (picks : Row → Bool) : (t.erase picks).Apart where
  sound := h.sound.erase picks
  times := h.times.filter _
  named r hr := h.named r (List.mem_filter.1 hr).1

/-- Pruning removes rows of the same contents from alike tables. -/
theorem alike_prune (ht : t.Apart) (ht' : t'.Apart) (h : t.Alike t') (workflow task : String) (keep : Nat) :
    (t.prune workflow task keep).Alike (t'.prune workflow task keep) := by
  have hgroup : ((t.group workflow task).map Row.content).Perm ((t'.group workflow task).map Row.content) :=
    perm_filter_content h fun _ => rfl
  have hloses : ∀ r ∈ t'.rows, t'.loses workflow task keep r = t.loses workflow task keep r := by
    intro r hr
    rw [Table.loses, Table.loses]
    by_cases htask : r.isOfTask workflow task = true
    · have hk : r.runKey ∈ keySet (t'.group workflow task) :=
        List.mem_toFinset.2 (List.mem_map_of_mem (List.mem_filter.2 ⟨hr, htask⟩))
      rw [rank_alike hgroup.symm (ht'.sound.dated_group workflow task) (ht.sound.dated_group workflow task)
        (ht'.times.filter _) (ht.times.filter _) hk]
    · rw [Bool.eq_false_iff.2 htask, Bool.false_and, Bool.false_and]
  have hfilter : t'.rows.filter (fun r => !t'.loses workflow task keep r) =
      t'.rows.filter fun r => !t.loses workflow task keep r := by
    refine List.filter_congr ?_
    intro r hr
    rw [hloses r hr]
  unfold Table.Alike
  rw [ht.sound.rows_prune, ht'.sound.rows_prune, hfilter]
  exact perm_filter_content h fun _ => rfl

/-! ## Runs of writes -/

/-- What a write adds has the stored time of its instant. -/
theorem stored?_of_content? {w : Writing} {c : Row} (h : w.content? = some c) :
    w.createdAt.stored? = some c.createdAt := by
  unfold Writing.content? at h
  split at h
  · next stored _ hstored =>
    split at h
    · cases h
      exact hstored
    · cases h
  · cases h

/-- What a write adds does not depend on its identifier. -/
theorem content?_unnamed (w : Writing) : w.unnamed.content? = w.content? := by
  have hidentity : w.unnamed.identity = w.identity := rfl
  have htime : w.unnamed.createdAt = w.createdAt := rfl
  have hcheck : ∀ stored, failedCheck? (w.unnamed.row stored) = failedCheck? (w.row stored) := by
    intro stored
    have hworkflow : (w.unnamed.row stored).workflow = (w.row stored).workflow := rfl
    have htask : (w.unnamed.row stored).task = (w.row stored).task := rfl
    have hrunKey : (w.unnamed.row stored).runKey = (w.row stored).runKey := rfl
    have hmapIndex : (w.unnamed.row stored).mapIndex = (w.row stored).mapIndex := rfl
    rw [failedCheck?, failedCheck?, hworkflow, htask, hrunKey, hmapIndex]
  have hcontent : ∀ stored, (w.unnamed.row stored).content = (w.row stored).content := by
    intro stored
    simp only [Row.content, Writing.row, Writing.unnamed, rowOf]
  simp only [Writing.content?, hidentity, htime, hcheck, hcontent]

/-- A write of an identity without a row adds its row and takes none away, or it fails. -/
theorem map_content_step {w : Writing} (hidentity : ∀ r ∈ t.rows, ¬r.isOf w.identity = true)
    (hid : ∀ r ∈ t.rows, r.id ≠ w.id.text) :
    ∃ t', (Call.write w).step ⟨some t⟩ = ⟨some t'⟩ ∧
      t'.rows.map Row.content = t.rows.map Row.content ++ w.content?.toList := by
  have herase : t.erase (·.isOf w.identity) = t := by
    have hall : t.rows.filter (fun r => !r.isOf w.identity) = t.rows := by
      refine List.filter_eq_self.2 ?_
      intro r hr
      rw [Bool.eq_false_iff.2 (hidentity r hr)]
      rfl
    rw [Table.erase, hall]
  have hfails : ∀ e, (Call.write w).perform ⟨some t⟩ = .error e → w.content? = none →
      ∃ t', (Call.write w).step ⟨some t⟩ = ⟨some t'⟩ ∧
        t'.rows.map Row.content = t.rows.map Row.content ++ w.content?.toList := by
    intro e hperform hnone
    refine ⟨t, by rw [Call.step, hperform], ?_⟩
    rw [hnone, Option.toList_none, List.append_nil]
  cases hblank : w.identity.blankPart? with
  | some part =>
    refine hfails (.blank part) ?_ ?_
    · simp only [Call.perform, write, hblank, Except.map]
    · simp only [Writing.content?, hblank]
  | none =>
    cases hstored : w.createdAt.stored? with
    | none =>
      refine hfails .beyondCalendar ?_ ?_
      · simp only [Call.perform, write, hblank, hstored, Except.map]
      · simp only [Writing.content?, hblank, hstored]
    | some stored =>
      have hsame : t.rows.any (w.row stored).sameIdentity = false := by
        rw [List.any_eq_false]
        intro r hr hsame
        obtain ⟨hworkflow, htask, hrunKey, hmapIndex⟩ := Row.sameIdentity_iff.1 hsame
        exact hidentity r hr (Row.isOf_iff.2 ⟨hworkflow.symm, htask.symm, hrunKey.symm, hmapIndex.symm⟩)
      have hnew : (t.rows.any fun r => decide (r.id = (w.row stored).id)) = false := by
        rw [List.any_eq_false]
        intro r hr hsame
        exact hid r hr (of_decide_eq_true hsame)
      have hwritten : ∀ t', t.insert (w.row stored) = .ok t' → (Call.write w).perform ⟨some t⟩ = .ok ⟨some t'⟩ := by
        intro t' hinsert
        rw [Writing.row] at hinsert
        simp only [Call.perform, write, hblank, hstored, tableFor, bind, Except.bind, herase, hinsert, Except.map]
      have hrefused : ∀ e, t.insert (w.row stored) = .error e →
          (Call.write w).perform ⟨some t⟩ = .error (.table .inserting e) := by
        intro e hinsert
        rw [Writing.row] at hinsert
        simp only [Call.perform, write, hblank, hstored, tableFor, bind, Except.bind, herase, hinsert, Except.map]
      cases hcheck : failedCheck? (w.row stored) with
      | some check =>
        have hinsert : t.insert (w.row stored) = .error (.checkFailed check) := by
          simp only [Table.insert, hcheck]
        refine hfails (.table .inserting (.checkFailed check)) (hrefused _ hinsert) ?_
        simp only [Writing.content?, hblank, hstored, hcheck, reduceCtorEq, if_false]
      | none =>
        have hinsert : t.insert (w.row stored) = .ok ⟨t.rows ++ [{ w.row stored with seq := t.next }], t.next + 1⟩ := by
          simp only [Table.insert, hcheck, hsame, hnew, Bool.false_eq_true, if_false]
        refine ⟨_, by rw [Call.step, hwritten _ hinsert], ?_⟩
        simp only [Writing.content?, hblank, hstored, hcheck, if_true, List.map_append]
        rfl

/-- After writes of different identities, the table holds what each of them adds. -/
theorem run_writes {ws : List Writing} (hids : (ws.map Writing.id).Nodup)
    (hidentities : (ws.map Writing.identity).Nodup) :
    ∃ t, run (ws.map .write) = ⟨some t⟩ ∧ t.rows.map Row.content = ws.filterMap Writing.content? := by
  induction ws using List.reverseRecOn with
  | nil => exact ⟨{}, rfl, rfl⟩
  | append_singleton ws w ih =>
    rw [List.map_append, List.nodup_append] at hids hidentities
    obtain ⟨hids, -, hid⟩ := hids
    obtain ⟨hidentities, -, hidentity⟩ := hidentities
    obtain ⟨t, hrun, hcontent⟩ := ih hids hidentities
    obtain ⟨u, hu, hstored⟩ := stored_run (ws.map .write)
    obtain rfl := table_unique hrun hu
    have hearlier : ∀ r ∈ t.rows, ∃ v ∈ ws, v.Stored r := by
      intro r hr
      obtain ⟨v, hv, hr⟩ := hstored r hr
      obtain ⟨u, hu, heq⟩ := List.mem_map.1 hv
      rw [← Call.write.inj heq] at hr
      exact ⟨u, hu, hr⟩
    have hother : ∀ r ∈ t.rows, ¬r.isOf w.identity = true := by
      intro r hr hof
      obtain ⟨v, hv, stored, seq, -, rfl⟩ := hearlier r hr
      refine hidentity v.identity (List.mem_map_of_mem hv) w.identity (List.mem_singleton.2 rfl) ?_
      exact eq_of_isOf (Row.isOf_iff.2 ⟨rfl, rfl, rfl, rfl⟩) hof
    have hnew : ∀ r ∈ t.rows, r.id ≠ w.id.text := by
      intro r hr heq
      obtain ⟨v, hv, stored, seq, -, rfl⟩ := hearlier r hr
      exact hid v.id (List.mem_map_of_mem hv) w.id (List.mem_singleton.2 rfl) (SnapshotId.text_injective heq)
    obtain ⟨t', hstep, hadded⟩ := map_content_step hother hnew
    refine ⟨t', ?_, ?_⟩
    · rw [List.map_append, List.map_singleton, run_append, hrun, hstep]
    · rw [hadded, hcontent, List.filterMap_append, List.filterMap_cons, List.filterMap_nil]
      cases w.content? <;> rfl

/-- After writes of different identities at different instants, the rows of the table are apart. -/
theorem apart_run {ws : List Writing} (hids : (ws.map Writing.id).Nodup) (hidentities : (ws.map Writing.identity).Nodup)
    (htimes : (ws.map fun w => w.createdAt.micros).Nodup) (hera : ∀ w ∈ ws, w.createdAt.InEra) :
    ∃ t, run (ws.map .write) = ⟨some t⟩ ∧ t.rows.map Row.content = ws.filterMap Writing.content? ∧ t.Apart := by
  obtain ⟨t, hrun, hcontent⟩ := run_writes hids hidentities
  obtain ⟨u, hu, hsound, -⟩ := run_spec (ws.map .write) fun w hw => by
    obtain ⟨v, hv, heq⟩ := List.mem_map.1 hw
    rw [← Call.write.inj heq]
    exact hera v hv
  obtain ⟨u', hu', hstored⟩ := stored_run (ws.map .write)
  rw [hrun] at hu hu'
  cases hu
  cases hu'
  refine ⟨t, hrun, hcontent, hsound, ?_, ?_⟩
  · have hpairwise : (t.rows.map Row.content).Pairwise fun r s => r.createdAt ≠ s.createdAt := by
      rw [hcontent, List.pairwise_filterMap]
      refine (List.pairwise_map.1 htimes).imp_of_mem ?_
      intro v w hv hw hne c hc c' hc' heq
      refine hne (Timestamp.micros_eq_of_stored?_eq (hera w hw) (stored?_of_content? hc) ?_)
      rw [heq]
      exact stored?_of_content? hc'
    exact (List.pairwise_map (f := Row.content)).1 hpairwise
  · intro r hr
    obtain ⟨w, -, stored, seq, -, rfl⟩ := hstored r hr
    exact ⟨w.id, rfl⟩

end CommutingAux

open CommutingAux

/-- Independent writes commute. Let the same writes, up to their identifiers, be made in two orders on an empty
store, no two of them of the same identity or at the same instant, cut to the microsecond. Then a prune of any
task, to any number of run keys, removes as many rows in both stores, and afterwards both show the same snapshot
of every identity and the same listing of every workflow and task, up to the identifiers. -/
theorem writes_commute {ws ws' : List Writing} (hsame : (ws.map Writing.unnamed).Perm (ws'.map Writing.unnamed))
    (hids : (ws.map Writing.id).Nodup) (hids' : (ws'.map Writing.id).Nodup)
    (hidentities : (ws.map Writing.identity).Nodup) (htimes : (ws.map fun w => w.createdAt.micros).Nodup)
    (hera : ∀ w ∈ ws, w.createdAt.InEra) (workflow task : String) (keep : Int) :
    ∃ removed after after', (run (ws.map .write)).prune workflow task keep = .ok (removed, after) ∧
      (run (ws'.map .write)).prune workflow task keep = .ok (removed, after') ∧
      (∀ i, (after.get? i).map (Option.map Snapshot.unnamed) = (after'.get? i).map (Option.map Snapshot.unnamed)) ∧
      ∀ workflow task limit, (after.list workflow task limit).map (List.map Snapshot.unnamed) =
        (after'.list workflow task limit).map (List.map Snapshot.unnamed) := by
  have hpart : ∀ {α : Type} (f : Writing → α), (∀ w : Writing, f w.unnamed = f w) → (ws.map f).Perm (ws'.map f) := by
    intro α f hf
    have hperm := hsame.map f
    simpa only [List.map_map, Function.comp_def, hf] using hperm
  have hera' : ∀ w ∈ ws', w.createdAt.InEra := by
    intro w hw
    obtain ⟨v, hv, heq⟩ := List.mem_map.1 ((hpart Writing.createdAt fun _ => rfl).mem_iff.2 (List.mem_map_of_mem hw))
    rw [← heq]
    exact hera v hv
  obtain ⟨t, hrun, hcontent, ht⟩ := apart_run hids hidentities htimes hera
  obtain ⟨t', hrun', hcontent', ht'⟩ := apart_run hids' ((hpart Writing.identity fun _ => rfl).nodup_iff.1 hidentities)
    ((hpart (fun w => w.createdAt.micros) fun _ => rfl).nodup_iff.1 htimes) hera'
  have halike : t.Alike t' := by
    have hadded := (hpart Writing.content? content?_unnamed).filterMap id
    rw [List.filterMap_map, List.filterMap_map] at hadded
    unfold Table.Alike
    rw [hcontent, hcontent']
    exact hadded
  rw [hrun, hrun']
  by_cases hkeep : keep ≤ 0
  · refine ⟨0, ⟨some t⟩, ⟨some t'⟩, by rw [prune, if_pos hkeep], by rw [prune, if_pos hkeep], ?_, ?_⟩
    · exact get?_alike ht ht' halike
    · exact list_alike ht ht' halike
  · have hleft := alike_prune ht ht' halike workflow task keep.toNat
    have hlength : t.rows.length - (t.prune workflow task keep.toNat).rows.length =
        t'.rows.length - (t'.prune workflow task keep.toNat).rows.length := by
      have hbefore := halike.length_eq
      have hafter := hleft.length_eq
      simp only [List.length_map] at hbefore hafter
      rw [hbefore, hafter]
    refine ⟨t.rows.length - (t.prune workflow task keep.toNat).rows.length, ⟨some (t.prune workflow task keep.toNat)⟩,
      ⟨some (t'.prune workflow task keep.toNat)⟩, prune_mk t workflow task (Int.not_le.1 hkeep), ?_, ?_, ?_⟩
    · rw [hlength]
      exact prune_mk t' workflow task (Int.not_le.1 hkeep)
    · exact get?_alike (apart_erase ht _) (apart_erase ht' _) hleft
    · exact list_alike (apart_erase ht _) (apart_erase ht' _) hleft

/-- A write of no fields of a run key at an instant. -/
def emptyAt (id : SnapshotId) (runKey : String) (nanos : Int) : Writing :=
  ⟨id, ⟨"w", "t", runKey, none⟩, [], none, ⟨nanos, 0⟩⟩

/-- Two run keys are written in either order, and the later one is kept. -/
theorem writes_commute_of_two : ∃ after after',
    (run ([emptyAt ⟨1⟩ "a" 0, emptyAt ⟨2⟩ "b" 1000].map .write)).prune "w" "t" 1 = .ok (1, after) ∧
    (run ([emptyAt ⟨3⟩ "b" 1000, emptyAt ⟨4⟩ "a" 0].map .write)).prune "w" "t" 1 = .ok (1, after') ∧
    (after.list "w" none none).map (List.map Snapshot.unnamed) =
      (after'.list "w" none none).map (List.map Snapshot.unnamed) := by
  have hsame : ([emptyAt ⟨1⟩ "a" 0, emptyAt ⟨2⟩ "b" 1000].map Writing.unnamed).Perm
      ([emptyAt ⟨3⟩ "b" 1000, emptyAt ⟨4⟩ "a" 0].map Writing.unnamed) := .swap _ _ _
  have hera : ∀ w ∈ [emptyAt ⟨1⟩ "a" 0, emptyAt ⟨2⟩ "b" 1000], w.createdAt.InEra := by
    intro w hw
    simp only [List.mem_cons, List.not_mem_nil, or_false] at hw
    rcases hw with rfl | rfl
    · decide
    · decide
  obtain ⟨removed, after, after', hprune, hprune', -, hlist⟩ :=
    writes_commute hsame (by decide) (by decide) (by decide) (by decide) hera "w" "t" 1
  obtain ⟨left, hleft⟩ : ∃ left, (run ([emptyAt ⟨1⟩ "a" 0, emptyAt ⟨2⟩ "b" 1000].map .write)).prune "w" "t" 1 =
      .ok (1, left) :=
    ⟨_, rfl⟩
  rw [hleft] at hprune
  cases hprune
  exact ⟨after, after', hleft, hprune', hlist "w" none none⟩

end Store

end SnapshotLedger
