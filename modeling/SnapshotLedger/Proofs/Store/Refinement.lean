import SnapshotLedger.Proofs.Rendered.Encoding
import SnapshotLedger.Proofs.SnapshotId
import SnapshotLedger.Proofs.Store.Retention

/-!
# A store holds the last write of each identity

A run is any sequence of writes, removals and prunes, of which those that fail change nothing. What one call
does to the row of an identity is said once (`find?_step`): it puts a new row there, it takes the row away, or
it leaves it as it is. By induction on the run, the row of an identity is that of its last write, unless a later
call has removed it (`run_spec`), and from that row the snapshot that was written is read (`snapshotOf_stored`).
-/

namespace SnapshotLedger

namespace Store

/-! ## Calls and runs -/

/-- What a write is given. -/
structure Writing where
  id : SnapshotId
  identity : Run
  fields : Fields
  podSpec : Option Fields
  createdAt : Timestamp

/-- A call that may change a store. -/
inductive Call where
  | write (w : Writing)
  | delete (identity : Run)
  | prune (workflow task : String) (keep : Int)

namespace Call

/-- The store that a call leads to, if it does not fail. -/
def perform (s : Store) : Call → Except Error Store
  | write w => (s.write w.id w.identity w.fields w.podSpec w.createdAt).map Prod.snd
  | delete identity => (s.delete identity).map Prod.snd
  | prune workflow task keep => (s.prune workflow task keep).map Prod.snd

/-- The store after a call, which is the one before it when the call fails. -/
def step (s : Store) (c : Call) : Store :=
  match c.perform s with
  | .ok s' => s'
  | .error _ => s

/-- The call writes and does not fail. -/
def Writes (w : Writing) (s : Store) (c : Call) : Prop := c = .write w ∧ ∃ s', c.perform s = .ok s'

/-- The call removes the snapshot of an identity: it deletes it without failing, or it prunes its task and its
run key is none of those that are kept. -/
def Removes (i : Run) (s : Store) : Call → Prop
  | write _ => False
  | delete j => j = i ∧ ∃ s', (delete j).perform s = .ok s'
  | prune workflow task keep => i.workflow = workflow ∧ i.task = task ∧ 0 < keep ∧
      ∀ t, s.table = some t → keep.toNat ≤ rank (t.group workflow task) i.runKey

end Call

/-- The store after some calls on an empty one. -/
def run (calls : List Call) : Store := calls.foldl Call.step blank.migrate

/-- Something is true of the call at a place of a run and the store that it finds. -/
def HappensAt (p : Store → Call → Prop) (calls : List Call) (k : Nat) : Prop :=
  ∃ c, calls[k]? = some c ∧ p (run (calls.take k)) c

/-- The call at a place of a run writes and does not fail. -/
def WrittenAt (calls : List Call) (k : Nat) (w : Writing) : Prop := HappensAt (Call.Writes w) calls k

/-- The call at a place of a run removes the snapshot of an identity. -/
def RemovedAt (calls : List Call) (k : Nat) (i : Run) : Prop := HappensAt (Call.Removes i) calls k

/-- The snapshot of an identity was written and has not been removed since. -/
def Stands (calls : List Call) (i : Run) : Prop :=
  ∃ k w, WrittenAt calls k w ∧ w.identity = i ∧ ∀ m, k < m → ¬RemovedAt calls m i

/-- A write is the last one of its identity. -/
def LastAt (calls : List Call) (k : Nat) (w : Writing) : Prop :=
  WrittenAt calls k w ∧ ∀ m w', k < m → WrittenAt calls m w' → w'.identity ≠ w.identity

/-- The row holds the snapshot, part by part. -/
structure Row.Holds (r : Row) (s : Snapshot) : Prop where
  id : SnapshotId.ofText r.id = .ok s.id
  identity : r.isOf s.identity = true
  fields : fieldsOfText r.fields = .ok s.fields
  podSpec : Option.Rel (fun text podSpec => fieldsOfText text = .ok podSpec) r.podSpec s.podSpec
  createdAt : Timestamp.ofStored? r.createdAt = some s.createdAt

namespace Writing

/-- What is asked of writes: the map index fits in 32 bits, the fields are storable, and the instant lies in a
year of four digits. -/
structure Proper (w : Writing) : Prop where
  indexed : ∀ n, w.identity.mapIndex = some n → (n : Int) ≤ Run.greatestIndex
  fields : w.fields.Storable
  podSpec : ∀ podSpec, w.podSpec = some podSpec → podSpec.Storable
  inEra : w.createdAt.InEra

/-- The row that a write puts into the table. -/
def Stored (w : Writing) (r : Row) : Prop :=
  ∃ stored seq, w.createdAt.stored? = some stored ∧
    r = { rowOf ⟨w.id, w.identity, w.fields, w.podSpec, w.createdAt.toUtc⟩ stored with seq }

/-- The snapshot that is read from the row that a write puts into the table. -/
def readBack (w : Writing) : Snapshot :=
  ⟨w.id, w.identity, w.fields.reread, w.podSpec.map Fields.reread, w.createdAt.floored⟩

/-- The snapshot shows what was written: the same identifier and identity, the same documents, the order of
members in objects aside, and the instant in universal time cut to the microsecond. -/
structure ShownBy (w : Writing) (s : Snapshot) : Prop where
  id : s.id = w.id
  identity : s.identity = w.identity
  fields : (Fields.toJson s.fields).sorted = (Fields.toJson w.fields).sorted
  podSpec : s.podSpec.map (fun p => (Fields.toJson p).sorted) = w.podSpec.map fun p => (Fields.toJson p).sorted
  createdAt : s.createdAt = w.createdAt.floored

end Writing

namespace RefinementAux

/-! ## Reading a row -/

/-- Storable fields are read from their text. -/
theorem fieldsOfText_fieldsText {fields : Fields} (h : fields.Storable) :
    fieldsOfText (fieldsText fields) = .ok fields.reread := by
  unfold fieldsOfText fieldsText
  rw [Json.read_compact h.plain_toJson h.shallow]
  rfl

/-- The map index of an identity is read from its stored form. -/
theorem mapIndexOf_storedIndex {i : Run} (h : ∀ n, i.mapIndex = some n → (n : Int) ≤ Run.greatestIndex) :
    mapIndexOf i.storedIndex = .ok i.mapIndex := by
  unfold mapIndexOf Run.storedIndex
  cases hindex : i.mapIndex with
  | none => rfl
  | some n =>
    have hne : ¬(n : Int) = Run.unmapped := by
      unfold Run.unmapped
      omega
    have hrange : (decide (0 ≤ (n : Int)) && decide ((n : Int) ≤ Run.greatestIndex)) = true := by
      rw [decide_eq_true (h n hindex), decide_eq_true (Int.natCast_nonneg n)]
      rfl
    simp only [hne, if_false, hrange, if_true, Int.toNat_natCast]

/-- A row is read as the snapshot that it holds, when the map index of that fits in 32 bits. -/
theorem snapshotOf_of_holds {r : Row} {s : Snapshot} (h : r.Holds s)
    (hindex : ∀ n, s.identity.mapIndex = some n → (n : Int) ≤ Run.greatestIndex) : snapshotOf r = .ok s := by
  obtain ⟨hid, hidentity, hfields, hpart, htime⟩ := h
  obtain ⟨id, ⟨workflow, task, runKey, index⟩, fields, podSpec, createdAt⟩ := s
  obtain ⟨rfl, rfl, rfl, hstored⟩ := Row.isOf_iff.1 hidentity
  have hmapIndex := mapIndexOf_storedIndex hindex
  rw [← hstored] at hmapIndex
  dsimp only at hid hfields hpart htime hmapIndex
  cases htext : r.podSpec with
  | none =>
    rw [htext] at hpart
    cases hpart
    simp only [snapshotOf, readColumn, hid, hmapIndex, hfields, htext, htime, Except.mapError, bind, Except.bind]
  | some text =>
    rw [htext] at hpart
    cases hpart with
    | some hread =>
      simp only [snapshotOf, readColumn, hid, hmapIndex, hfields, htext, hread, htime, Except.mapError,
        Except.map, bind, Except.bind]

/-- What is read from the row of a write. -/
theorem snapshotOf_eq_readBack {w : Writing} (hw : w.Proper) {r : Row} (hr : w.Stored r) :
    snapshotOf r = .ok w.readBack := by
  obtain ⟨stored, seq, hstored, rfl⟩ := hr
  refine snapshotOf_of_holds ⟨SnapshotId.ofText_text w.id, Row.isOf_iff.2 ⟨rfl, rfl, rfl, rfl⟩,
    fieldsOfText_fieldsText hw.fields, ?_, Timestamp.ofStored?_of_stored? hstored⟩ hw.indexed
  dsimp only [rowOf, Writing.readBack]
  cases hpod : w.podSpec with
  | none => exact .none
  | some podSpec => exact .some (fieldsOfText_fieldsText (hw.podSpec podSpec hpod))

/-- The row of a write shows what was written. -/
theorem snapshotOf_stored {w : Writing} (hw : w.Proper) {r : Row} (hr : w.Stored r) :
    ∃ snapshot, snapshotOf r = .ok snapshot ∧ w.ShownBy snapshot := by
  refine ⟨w.readBack, snapshotOf_eq_readBack hw hr, rfl, rfl, hw.fields.sorted_reread, ?_, rfl⟩
  cases hpod : w.podSpec with
  | none => simp only [Writing.readBack, hpod, Option.map_none]
  | some podSpec => simp only [Writing.readBack, hpod, Option.map_some, (hw.podSpec podSpec hpod).sorted_reread]

/-! ## One call -/

/-- What a call does to the row of an identity: a write of the identity puts its row there, a call that removes
the identity takes the row away, and all others leave it as it is. -/
inductive Effect (t t' : Table) (c : Call) (i : Run) : Prop where
  | written (w : Writing) (r : Row) (writes : c.Writes w ⟨some t⟩) (identity : w.identity = i) (stored : w.Stored r)
      (found : t'.find? i = some r)
  | removed (removes : c.Removes i ⟨some t⟩) (found : t'.find? i = none)
  | left (notWritten : ∀ w, c.Writes w ⟨some t⟩ → w.identity ≠ i) (notRemoved : ¬c.Removes i ⟨some t⟩)
      (found : t'.find? i = t.find? i)

/-- In a table that has lost some rows, an identity has its row unless that is one of them. -/
theorem find?_erase {t : Table} (h : t.Sound) (picks : Row → Bool) (i : Run)
    (hpicks : ∀ r, t.find? i = some r → picks r = false) :
    (t.erase picks).find? i = t.find? i := by
  refine Option.ext fun r => ?_
  rw [(h.erase picks).find?_eq_some_iff, h.find?_eq_some_iff]
  constructor
  · rintro ⟨hr, hof⟩
    exact ⟨(List.mem_filter.1 hr).1, hof⟩
  · rintro ⟨hr, hof⟩
    have hkept := hpicks r (h.find?_eq_some_iff.2 ⟨hr, hof⟩)
    exact ⟨List.mem_filter.2 ⟨hr, by rw [hkept]; rfl⟩, hof⟩

/-- In a table that has lost the row of an identity, it has none. -/
theorem find?_erase_eq_none {t : Table} (h : t.Sound) (picks : Row → Bool) (i : Run)
    (hpicks : ∀ r, t.find? i = some r → picks r = true) : (t.erase picks).find? i = none := by
  refine Option.eq_none_iff_forall_ne_some.2 fun r hr => ?_
  obtain ⟨hmem, hof⟩ := (h.erase picks).find?_eq_some_iff.1 hr
  obtain ⟨hmem, hkept⟩ := List.mem_filter.1 hmem
  rw [hpicks r (h.find?_eq_some_iff.2 ⟨hmem, hof⟩)] at hkept
  cases hkept

/-- A call that writes and does not fail is a write that does not. -/
theorem perform_write_eq_ok {s s' : Store} {w : Writing} (h : (Call.write w).perform s = .ok s') :
    ∃ answer, s.write w.id w.identity w.fields w.podSpec w.createdAt = .ok (answer, s') := by
  rw [Call.perform] at h
  obtain ⟨⟨answer, after⟩, hwrite, rfl⟩ := map_eq_ok h
  exact ⟨answer, hwrite⟩

/-- What a call makes of a table: it leaves it, it takes rows away, or it puts the row of a write in the place
of the one before. -/
inductive Change (t : Table) : Call → Table → Prop where
  | left (c : Call) : Change t c t
  | erased (c : Call) (picks : Row → Bool) : Change t c (t.erase picks)
  | written (w : Writing) (stored : String) (t' : Table) (time : w.createdAt.stored? = some stored)
      (inserted : (t.erase (·.isOf w.identity)).insert
        (rowOf ⟨w.id, w.identity, w.fields, w.podSpec, w.createdAt.toUtc⟩ stored) = .ok t') : Change t (.write w) t'

/-- Every call makes one of these changes. -/
theorem change_step (t : Table) (c : Call) : ∃ t', c.step ⟨some t⟩ = ⟨some t'⟩ ∧ Change t c t' := by
  rw [Call.step]
  cases hperform : c.perform ⟨some t⟩ with
  | error e => exact ⟨t, rfl, .left c⟩
  | ok s' =>
    cases c with
    | write w =>
      obtain ⟨answer, hwrite⟩ := perform_write_eq_ok hperform
      obtain ⟨rfl, u, t', stored, htable, heq, hstored, hinsert⟩ := write_eq_ok hwrite
      cases htable
      exact ⟨t', heq, .written w stored t' hstored hinsert⟩
    | delete identity =>
      rw [Call.perform] at hperform
      obtain ⟨⟨answer, after⟩, hdelete, rfl⟩ := map_eq_ok hperform
      obtain ⟨u, htable, heq, -⟩ := delete_eq_ok hdelete
      cases htable
      exact ⟨_, heq, .erased _ _⟩
    | prune workflow task keep =>
      rw [Call.perform] at hperform
      obtain ⟨⟨answer, after⟩, hprune, rfl⟩ := map_eq_ok hperform
      rcases prune_eq_ok hprune with ⟨-, -, heq⟩ | ⟨-, u, htable, heq, -⟩
      · exact ⟨t, heq, .left _⟩
      · cases htable
        exact ⟨_, heq, .erased _ _⟩

/-- What a write does that does not fail. -/
theorem effect_write {t t' : Table} (h : t.Sound) {w : Writing} (hw : w.createdAt.InEra)
    (hperform : (Call.write w).perform ⟨some t⟩ = .ok ⟨some t'⟩) : t'.Sound ∧ ∀ i, Effect t t' (.write w) i := by
  obtain ⟨answer, hwrite⟩ := perform_write_eq_ok hperform
  have hsound := sound_mk.1 (sound_of_write (sound_mk.2 h) hw hwrite)
  obtain ⟨rfl, u, u', stored, htable, heq, hstored, hinsert⟩ := write_eq_ok hwrite
  cases htable
  cases heq
  obtain ⟨-, rfl⟩ := Table.insert_eq_ok hinsert
  refine ⟨hsound, fun i => ?_⟩
  have hnew : Row.isOf { rowOf ⟨w.id, w.identity, w.fields, w.podSpec, w.createdAt.toUtc⟩ stored with seq := t.next }
      w.identity = true := Row.isOf_iff.2 ⟨rfl, rfl, rfl, rfl⟩
  by_cases hi : w.identity = i
  · subst hi
    exact .written w _ ⟨rfl, _, hperform⟩ rfl ⟨stored, t.next, hstored, rfl⟩
      (hsound.find?_eq_some_iff.2 ⟨List.mem_append_right _ (List.mem_singleton.2 rfl), hnew⟩)
  · refine .left ?_ id ?_
    · rintro w' ⟨hcall, -⟩
      cases hcall
      exact hi
    · have herase := find?_erase h (·.isOf w.identity) i fun r hr => by
        rw [Bool.eq_false_iff]
        exact fun hof => hi (eq_of_isOf hof (h.find?_eq_some_iff.1 hr).2)
      rw [← herase]
      refine Option.ext fun r => ?_
      rw [hsound.find?_eq_some_iff, (h.erase _).find?_eq_some_iff]
      constructor
      · rintro ⟨hr, hof⟩
        rcases List.mem_append.1 hr with hr | hr
        · exact ⟨hr, hof⟩
        · rw [List.mem_singleton.1 hr] at hof
          exact absurd (eq_of_isOf hnew hof) hi
      · rintro ⟨hr, hof⟩
        exact ⟨List.mem_append_left _ hr, hof⟩

/-- What a removal does. -/
theorem effect_delete {t : Table} (h : t.Sound) (identity i : Run) :
    Effect t (t.erase (·.isOf identity)) (.delete identity) i := by
  by_cases hi : identity = i
  · subst hi
    refine .removed ⟨rfl, _, rfl⟩ (find?_erase_eq_none h _ _ fun r hr => (h.find?_eq_some_iff.1 hr).2)
  · refine .left ?_ (fun hremoves => hi hremoves.1) (find?_erase h _ _ fun r hr => ?_)
    · rintro w ⟨hcall, -⟩
      cases hcall
    · rw [Bool.eq_false_iff]
      exact fun hof => hi (eq_of_isOf hof (h.find?_eq_some_iff.1 hr).2)

/-- What pruning to a positive number does. -/
theorem effect_prune {t : Table} (h : t.Sound) (workflow task : String) {keep : Int} (hkeep : 0 < keep) (i : Run) :
    Effect t (t.prune workflow task keep.toNat) (.prune workflow task keep) i := by
  have hnot : ∀ w, (Call.prune workflow task keep).Writes w ⟨some t⟩ → w.identity ≠ i := by
    rintro w ⟨hcall, -⟩
    cases hcall
  have hrows : t.prune workflow task keep.toNat = t.erase (t.loses workflow task keep.toNat) := by
    have hsame := h.rows_prune workflow task keep.toNat
    unfold Table.prune Table.erase at hsame ⊢
    simp only [Table.mk.injEq, and_true] at hsame ⊢
    exact hsame
  have hloses : ∀ r, t.find? i = some r → t.loses workflow task keep.toNat r =
      (decide (i.workflow = workflow ∧ i.task = task) &&
        decide (keep.toNat ≤ rank (t.group workflow task) i.runKey)) := by
    intro r hr
    obtain ⟨hw, ht, hk, -⟩ := Row.isOf_iff.1 (h.find?_eq_some_iff.1 hr).2
    rw [Table.loses, hk, Row.isOfTask, hw, ht, Bool.decide_and]
  rw [hrows]
  by_cases hremoves : (Call.prune workflow task keep).Removes i ⟨some t⟩
  · refine .removed hremoves (find?_erase_eq_none h _ _ fun r hr => ?_)
    obtain ⟨hw, ht, -, hrank⟩ := hremoves
    rw [hloses r hr, decide_eq_true ⟨hw, ht⟩, decide_eq_true (hrank t rfl)]
    rfl
  · refine .left hnot hremoves (find?_erase h _ _ fun r hr => ?_)
    rw [hloses r hr, ← Bool.decide_and, decide_eq_false_iff_not]
    rintro ⟨⟨hw, ht⟩, hrank⟩
    refine hremoves ⟨hw, ht, hkeep, fun u hu => ?_⟩
    cases hu
    exact hrank

/-- A call that fails leaves every row. -/
theorem effect_error {t : Table} {c : Call} (i : Run) {e : Error} (hperform : c.perform ⟨some t⟩ = .error e) :
    Effect t t c i := by
  refine .left ?_ ?_ rfl
  · rintro w ⟨-, s', hs'⟩
    rw [hperform] at hs'
    cases hs'
  · intro hremoves
    cases c with
    | write w => exact hremoves
    | delete j =>
      obtain ⟨-, s', hs'⟩ := hremoves
      rw [hperform] at hs'
      cases hs'
    | prune workflow task keep =>
      rw [Call.perform, prune_mk t workflow task hremoves.2.2.1] at hperform
      cases hperform

/-- What one call does to a table and to the row of each identity. -/
theorem find?_step {t : Table} (h : t.Sound) {c : Call} (hc : ∀ w, c = .write w → w.createdAt.InEra) :
    ∃ t', c.step ⟨some t⟩ = ⟨some t'⟩ ∧ t'.Sound ∧ ∀ i, Effect t t' c i := by
  cases hperform : c.perform ⟨some t⟩ with
  | error e =>
    refine ⟨t, ?_, h, fun i => effect_error i hperform⟩
    rw [Call.step, hperform]
  | ok s' =>
    have hstep : c.step ⟨some t⟩ = s' := by rw [Call.step, hperform]
    cases c with
    | write w =>
      obtain ⟨answer, hwrite⟩ := perform_write_eq_ok hperform
      obtain ⟨-, u, t', stored, -, rfl, -, -⟩ := write_eq_ok hwrite
      exact ⟨t', hstep, effect_write h (hc w rfl) hperform⟩
    | delete identity =>
      cases hperform
      exact ⟨_, hstep, h.erase _, fun i => effect_delete h identity i⟩
    | prune workflow task keep =>
      by_cases hkeep : 0 < keep
      · rw [Call.perform, prune_mk t workflow task hkeep] at hperform
        cases hperform
        exact ⟨_, hstep, h.erase _, fun i => effect_prune h workflow task hkeep i⟩
      · rw [Call.perform, Store.prune, if_pos (Int.not_lt.1 hkeep)] at hperform
        cases hperform
        refine ⟨t, hstep, h, fun i => .left ?_ (fun hremoves => hkeep hremoves.2.2.1) rfl⟩
        rintro w ⟨hcall, -⟩
        cases hcall

/-! ## Runs -/

/-- A run with one more call. -/
theorem run_append (calls : List Call) (c : Call) : run (calls ++ [c]) = c.step (run calls) := by
  rw [run, List.foldl_append]
  rfl

/-- What holds of the table without rows and is kept by what each call makes of a table holds of the table of a run. -/
theorem run_invariant {p : Table → Prop} {calls : List Call} (hempty : p {})
    (hkept : ∀ c ∈ calls, ∀ t t', p t → Change t c t' → p t') : ∃ t, run calls = ⟨some t⟩ ∧ p t := by
  induction calls using List.reverseRecOn with
  | nil => exact ⟨{}, rfl, hempty⟩
  | append_singleton calls c ih =>
    obtain ⟨t, hrun, ht⟩ := ih fun d hd => hkept d (List.mem_append_left _ hd)
    obtain ⟨t', hstep, hchange⟩ := change_step t c
    refine ⟨t', ?_, hkept c (List.mem_append_right _ (List.mem_singleton.2 rfl)) t t' ht hchange⟩
    rw [run_append, hrun, hstep]

/-- With one more call, something happens where it happened before, or at the new call. -/
theorem happensAt_append {p : Store → Call → Prop} {calls : List Call} {c : Call} {k : Nat} :
    HappensAt p (calls ++ [c]) k ↔ (k < calls.length ∧ HappensAt p calls k) ∨ (k = calls.length ∧ p (run calls) c) := by
  unfold HappensAt
  rcases Nat.lt_trichotomy k calls.length with hlt | heq | hgt
  · rw [List.getElem?_append_left hlt, List.take_append_of_le_length (Nat.le_of_lt hlt)]
    constructor
    · exact fun h => .inl ⟨hlt, h⟩
    · rintro (⟨-, h⟩ | ⟨heq, -⟩)
      · exact h
      · omega
  · subst heq
    rw [List.getElem?_append_right (Nat.le_refl _), Nat.sub_self, List.take_left]
    simp only [List.getElem?_cons_zero, Option.some.injEq, exists_eq_left', Nat.lt_irrefl, false_and, true_and,
      false_or]
  · rw [List.getElem?_eq_none (by rw [List.length_append, List.length_singleton]; omega)]
    constructor
    · rintro ⟨d, hd, -⟩
      cases hd
    · rintro (⟨hlt, -⟩ | ⟨heq, -⟩) <;> omega

/-- Nothing happens behind the end of a run. -/
theorem lt_length_of_happensAt {p : Store → Call → Prop} {calls : List Call} {k : Nat} (h : HappensAt p calls k) :
    k < calls.length := by
  obtain ⟨c, hc, -⟩ := h
  exact (List.getElem?_eq_some_iff.1 hc).1

/-- What is known of the row of an identity after a run: there is none and the identity has no snapshot
standing, or it is the row of its last write, and the identity has not been removed since. -/
inductive Found (calls : List Call) (i : Run) (row : Option Row) : Prop where
  | none (absent : row = none) (gone : ¬Stands calls i)
  | last (k : Nat) (w : Writing) (r : Row) (present : row = some r) (stored : w.Stored r) (identity : w.identity = i)
      (last : LastAt calls k w) (kept : ∀ m, k < m → ¬RemovedAt calls m i)

/-- One more call keeps what is known of the row of an identity. -/
theorem found_append {calls : List Call} {c : Call} {i : Run} {t t' : Table} (hrun : run calls = ⟨some t⟩)
    (hfound : Found calls i (t.find? i)) (heffect : Effect t t' c i) : Found (calls ++ [c]) i (t'.find? i) := by
  have hafter : ∀ {m w}, calls.length < m → ¬WrittenAt (calls ++ [c]) m w := by
    intro m w hm hwritten
    have hlt := lt_length_of_happensAt hwritten
    rw [List.length_append, List.length_singleton] at hlt
    omega
  cases heffect with
  | written w r writes identity stored found =>
    refine .last calls.length w r found stored identity
      ⟨?_, fun m w' hm h => absurd h (hafter hm)⟩ fun m hm hremoved => ?_
    · exact happensAt_append.2 (.inr ⟨rfl, hrun ▸ writes⟩)
    · have hlt := lt_length_of_happensAt hremoved
      rw [List.length_append, List.length_singleton] at hlt
      omega
  | removed removes found =>
    refine .none found ?_
    rintro ⟨k, w, hwritten, hidentity, hkept⟩
    rcases happensAt_append.1 hwritten with ⟨hlt, -⟩ | ⟨-, hwrites⟩
    · exact hkept calls.length hlt (happensAt_append.2 (.inr ⟨rfl, hrun ▸ removes⟩))
    · rw [hwrites.1] at removes
      exact removes
  | left notWritten notRemoved found =>
    rw [found]
    cases hfound with
    | none absent gone =>
      refine .none absent ?_
      rintro ⟨k, w, hwritten, hidentity, hkept⟩
      rcases happensAt_append.1 hwritten with ⟨hlt, hwritten⟩ | ⟨-, hwrites⟩
      · refine gone ⟨k, w, hwritten, hidentity, fun m hm hremoved => ?_⟩
        exact hkept m hm (happensAt_append.2 (.inl ⟨lt_length_of_happensAt hremoved, hremoved⟩))
      · exact notWritten w (hrun ▸ hwrites) hidentity
    | last k w r present stored identity last kept =>
      refine .last k w r present stored identity ⟨?_, fun m w' hm hwritten => ?_⟩ fun m hm hremoved => ?_
      · exact happensAt_append.2 (.inl ⟨lt_length_of_happensAt last.1, last.1⟩)
      · rcases happensAt_append.1 hwritten with ⟨-, hwritten⟩ | ⟨-, hwrites⟩
        · exact last.2 m w' hm hwritten
        · rw [identity]
          exact notWritten w' (hrun ▸ hwrites)
      · rcases happensAt_append.1 hremoved with ⟨-, hremoved⟩ | ⟨-, hremoves⟩
        · exact kept m hm hremoved
        · exact notRemoved (hrun ▸ hremoves)

/-- After a run, the row of each identity is that of its last write, unless it has been removed since. -/
theorem run_spec (calls : List Call) (h : ∀ w, .write w ∈ calls → w.createdAt.InEra) :
    ∃ t, run calls = ⟨some t⟩ ∧ t.Sound ∧ ∀ i, Found calls i (t.find? i) := by
  induction calls using List.reverseRecOn with
  | nil =>
    refine ⟨{}, rfl, .empty, fun i => .none rfl ?_⟩
    rintro ⟨k, w, hwritten, -⟩
    exact absurd (lt_length_of_happensAt hwritten) (Nat.not_lt_zero k)
  | append_singleton calls c ih =>
    obtain ⟨t, hrun, hsound, hfound⟩ := ih fun w hw => h w (List.mem_append_left _ hw)
    obtain ⟨t', hstep, hsound', heffect⟩ := find?_step hsound (c := c) fun w hw =>
      h w (List.mem_append_right _ (List.mem_singleton.2 hw.symm))
    refine ⟨t', ?_, hsound', fun i => found_append hrun (hfound i) (heffect i)⟩
    rw [run_append, hrun, hstep]

end RefinementAux

open RefinementAux

/-- A store holds the last write of each identity. After any calls on an empty store, no two rows have the same
identity, and asking for an identity never fails: there is a snapshot exactly when the identity was written and
has not been removed since, and it shows the last write of the identity. -/
theorem run_holds_last_writes (calls : List Call) (h : ∀ w, .write w ∈ calls → w.Proper) :
    (∃ t, (run calls).table = some t ∧ t.rows.Pairwise fun r s => ¬r.sameIdentity s = true) ∧
      ∀ i, ∃ answer, (run calls).get? i = .ok answer ∧ (answer.isSome = true ↔ Stands calls i) ∧
        ∀ snapshot, answer = some snapshot → ∃ k w, LastAt calls k w ∧ w.identity = i ∧ w.ShownBy snapshot := by
  obtain ⟨t, hrun, hsound, hfound⟩ := run_spec calls fun w hw => (h w hw).inEra
  rw [hrun]
  refine ⟨⟨t, rfl, hsound.distinct⟩, fun i => ?_⟩
  cases hfound i with
  | none absent gone =>
    refine ⟨none, ?_, ⟨nofun, fun hstands => absurd hstands gone⟩, nofun⟩
    simp only [get?, tableFor, bind, Except.bind, absent]
  | last k w r present stored identity last kept =>
    have hw : w.Proper := by
      obtain ⟨c, hc, hwrites, -⟩ := last.1
      exact h w (hwrites ▸ List.mem_of_getElem? hc)
    obtain ⟨snapshot, hsnapshot, hshown⟩ := snapshotOf_stored hw stored
    refine ⟨some snapshot, ?_, ⟨fun _ => ⟨k, w, last.1, identity, kept⟩, fun _ => rfl⟩, ?_⟩
    · simp only [get?, tableFor, bind, Except.bind, present, hsnapshot]
      rfl
    · rintro _ ⟨⟩
      exact ⟨k, w, last, identity, hshown⟩

/-- A snapshot written twice shows the second write. -/
theorem run_holds_last_writes_of_rewrite :
    ∃ snapshot, (run [.write ⟨⟨1⟩, ⟨"w", "t", "r", none⟩, [("x", .text "a")], none, ⟨0, 0⟩⟩,
      .write ⟨⟨2⟩, ⟨"w", "t", "r", none⟩, [("x", .integer 1)], some [], ⟨1, 0⟩⟩]).get? ⟨"w", "t", "r", none⟩ =
        .ok (some snapshot) ∧
    ∃ k w, LastAt [.write ⟨⟨1⟩, ⟨"w", "t", "r", none⟩, [("x", .text "a")], none, ⟨0, 0⟩⟩,
      .write ⟨⟨2⟩, ⟨"w", "t", "r", none⟩, [("x", .integer 1)], some [], ⟨1, 0⟩⟩] k w ∧ w.ShownBy snapshot := by
  have hproper : ∀ w, Call.write w ∈ [Call.write ⟨⟨1⟩, ⟨"w", "t", "r", none⟩, [("x", .text "a")], none, ⟨0, 0⟩⟩,
      .write ⟨⟨2⟩, ⟨"w", "t", "r", none⟩, [("x", .integer 1)], some [], ⟨1, 0⟩⟩] → w.Proper := by
    have hone : ∀ v : Rendered, v.Exact → v.Ordered → (Fields.toJson [("x", v)]).nesting ≤ Json.deepest →
        Fields.Storable [("x", v)] := fun v hexact hordered hshallow =>
      ⟨List.pairwise_singleton _ _, ⟨hordered, trivial⟩, ⟨hexact, trivial⟩, hshallow⟩
    intro w hw
    simp only [List.mem_cons, Call.write.injEq, List.not_mem_nil, or_false] at hw
    rcases hw with rfl | rfl
    · exact ⟨by simp, hone _ trivial trivial (by decide), by simp, by decide⟩
    · refine ⟨by simp, hone _ rfl trivial (by decide), fun spec hspec => ?_, by decide⟩
      rw [← Option.some.inj hspec]
      exact ⟨.nil, trivial, trivial, by decide⟩
  obtain ⟨answer, hanswer, hsome, hshown⟩ := (run_holds_last_writes _ hproper).2 ⟨"w", "t", "r", none⟩
  have hstands : answer.isSome = true := by
    refine hsome.2 ⟨1, _, ⟨_, rfl, rfl, _, rfl⟩, rfl, fun m hm hremoved => ?_⟩
    have hlt := lt_length_of_happensAt hremoved
    simp only [List.length_cons, List.length_nil] at hlt
    omega
  obtain ⟨snapshot, rfl⟩ := Option.isSome_iff_exists.1 hstands
  obtain ⟨k, w, hlast, -, hw⟩ := hshown snapshot rfl
  exact ⟨snapshot, hanswer, k, w, hlast, hw⟩

end Store

end SnapshotLedger
