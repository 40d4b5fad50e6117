import SnapshotLedger.Proofs.Answers
import SnapshotLedger.Proofs.Calendar.Stored
import SnapshotLedger.Store.Basic

/-!
# What holds of every store

The rows of a store have ascending numbers below the next one, no two rows have the same identity, and every
time stored is that of an instant (`Table.Sound`). The operations that change a store keep this
(`sound_of_write`, `sound_of_delete`, `sound_of_prune`), so it holds of every store that they lead to
(`Reachable.sound`).
-/

namespace SnapshotLedger

namespace Store

/-! ## Rows of identities -/

namespace Row

/-- Whether the row is one of an identity, part by part. -/
theorem isOf_iff {r : Row} {i : Run} :
    r.isOf i = true ↔ r.workflow = i.workflow ∧ r.task = i.task ∧ r.runKey = i.runKey ∧ r.mapIndex = i.storedIndex := by
  simp only [isOf, Bool.and_eq_true, decide_eq_true_eq, and_assoc]

/-- Whether two rows have the same identity, part by part. -/
theorem sameIdentity_iff {r s : Row} :
    r.sameIdentity s = true ↔ r.workflow = s.workflow ∧ r.task = s.task ∧ r.runKey = s.runKey ∧
      r.mapIndex = s.mapIndex := by
  simp only [sameIdentity, Bool.and_eq_true, decide_eq_true_eq, and_assoc]

/-- Rows of one identity have the same identity. -/
theorem sameIdentity_of_isOf {r s : Row} {i : Run} (hr : r.isOf i = true) (hs : s.isOf i = true) :
    r.sameIdentity s = true := by
  obtain ⟨hw, ht, hk, hm⟩ := isOf_iff.1 hr
  obtain ⟨hw', ht', hk', hm'⟩ := isOf_iff.1 hs
  exact sameIdentity_iff.2 ⟨hw.trans hw'.symm, ht.trans ht'.symm, hk.trans hk'.symm, hm.trans hm'.symm⟩

end Row

/-- The stored map index tells map indexes apart, and runs without one from all that have one. -/
theorem mapIndex_eq_of_storedIndex_eq {i j : Run} (h : i.storedIndex = j.storedIndex) : i.mapIndex = j.mapIndex := by
  unfold Run.storedIndex Run.unmapped at h
  cases hi : i.mapIndex <;> cases hj : j.mapIndex <;> simp only [hi, hj] at h
  · rfl
  · omega
  · omega
  · rw [Int.ofNat.inj h]

/-- A row belongs to no more than one identity. -/
theorem eq_of_isOf {r : Row} {i j : Run} (hi : r.isOf i = true) (hj : r.isOf j = true) : i = j := by
  obtain ⟨hw, ht, hk, hm⟩ := Row.isOf_iff.1 hi
  obtain ⟨hw', ht', hk', hm'⟩ := Row.isOf_iff.1 hj
  have hindex := mapIndex_eq_of_storedIndex_eq (hm.symm.trans hm')
  cases i
  cases j
  simp only [Run.mk.injEq]
  exact ⟨hw.symm.trans hw', ht.symm.trans ht', hk.symm.trans hk', hindex⟩

/-! ## The invariant -/

/-- The time of the row is that of an instant in a year of four digits. -/
def Row.Dated (r : Row) : Prop := ∃ time : Timestamp, time.InEra ∧ time.stored? = some r.createdAt

namespace Table

/-- The row that is found is one of the identity. -/
theorem mem_of_find?_eq_some {t : Table} {i : Run} {r : Row} (h : t.find? i = some r) : r ∈ t.rows ∧ r.isOf i = true :=
  ⟨List.mem_of_find?_eq_some h, List.find?_some (p := fun s : Row => s.isOf i) h⟩

/-- The only row of an identity is found. -/
theorem find?_eq_some {t : Table} {i : Run} {r : Row} (hr : r ∈ t.rows) (hof : r.isOf i = true)
    (hone : ∀ s ∈ t.rows, s.isOf i = true → s = r) : t.find? i = some r := by
  cases hfind : t.find? i with
  | none => exact absurd hof (List.find?_eq_none.1 hfind r hr)
  | some s =>
    obtain ⟨hmem, hs⟩ := mem_of_find?_eq_some hfind
    rw [hone s hmem hs]

/-- What holds of the table of every store. -/
structure Sound (t : Table) : Prop where
  numbered : t.rows.Pairwise fun r s => r.seq < s.seq
  bounded : ∀ r ∈ t.rows, r.seq < t.next
  distinct : t.rows.Pairwise fun r s => ¬r.sameIdentity s = true
  dated : ∀ r ∈ t.rows, r.Dated

namespace Sound

variable {t : Table}

/-- The invariant holds of the table without rows. -/
theorem empty : Sound {} := ⟨.nil, nofun, .nil, nofun⟩

/-- Removing rows keeps the invariant. -/
theorem erase (h : t.Sound) (picks : Row → Bool) : (t.erase picks).Sound where
  numbered := h.numbered.filter _
  bounded r hr := h.bounded r ((List.mem_filter.1 hr).1)
  distinct := h.distinct.filter _
  dated r hr := h.dated r ((List.mem_filter.1 hr).1)

/-- Rows of the same identity are the same row. -/
theorem eq_of_isOf (h : t.Sound) {r s : Row} (hr : r ∈ t.rows) (hs : s ∈ t.rows) {i : Run} (hri : r.isOf i = true)
    (hsi : s.isOf i = true) : r = s := by
  have hone : t.rows.Pairwise fun r s => r.isOf i = true → s.isOf i = true → r = s :=
    h.distinct.imp fun hne ha hb => absurd (Row.sameIdentity_of_isOf ha hb) hne
  have hback : t.rows.Pairwise fun r s => s.isOf i = true → r.isOf i = true → s = r :=
    hone.imp fun heq ha hb => (heq hb ha).symm
  exact List.Pairwise.forall_of_forall_of_flip (fun _ _ _ _ => rfl) hone hback hr hs hri hsi

/-- The row found for an identity is the row of that identity. -/
theorem find?_eq_some_iff (h : t.Sound) {i : Run} {r : Row} : t.find? i = some r ↔ r ∈ t.rows ∧ r.isOf i = true := by
  constructor
  · exact mem_of_find?_eq_some
  · rintro ⟨hmem, hr⟩
    exact find?_eq_some hmem hr fun s hs hsi => h.eq_of_isOf hs hmem hsi hr

end Sound

/-- What a table that takes a row makes of it. -/
theorem insert_eq_ok {t t' : Table} {r : Row} (h : t.insert r = .ok t') :
    (∀ s ∈ t.rows, ¬r.sameIdentity s = true) ∧ t' = ⟨t.rows ++ [{ r with seq := t.next }], t.next + 1⟩ := by
  unfold insert at h
  split at h
  · cases h
  split at h
  · cases h
  next hsame =>
  split at h
  · cases h
  cases h
  refine ⟨fun s hs heq => hsame (List.any_eq_true.2 ⟨s, hs, heq⟩), rfl⟩

/-- What holds of all rows and of a new one with its number holds of all rows then. -/
theorem forall_mem_insert {t t' : Table} {r : Row} {p : Row → Prop} (hinsert : t.insert r = .ok t')
    (hold : ∀ s ∈ t.rows, p s) (hnew : p { r with seq := t.next }) : ∀ s ∈ t'.rows, p s := by
  obtain ⟨-, rfl⟩ := insert_eq_ok hinsert
  intro s hs
  rcases List.mem_append.1 hs with hs | hs
  · exact hold s hs
  · rw [List.mem_singleton.1 hs]
    exact hnew

/-- A row that is put in the place of the row of an identity is found under it. -/
theorem find?_insert_erase {t t' : Table} {r : Row} {i : Run} (hof : r.isOf i = true)
    (hinsert : (t.erase (·.isOf i)).insert r = .ok t') : t'.find? i = some { r with seq := t.next } := by
  obtain ⟨-, rfl⟩ := insert_eq_ok hinsert
  refine find?_eq_some (List.mem_append_right _ (List.mem_singleton.2 rfl)) hof ?_
  intro s hs hsi
  rcases List.mem_append.1 hs with hs | hs
  · have hother := (List.mem_filter.1 hs).2
    simp only [hsi, Bool.not_true, Bool.false_eq_true] at hother
  · exact List.mem_singleton.1 hs

/-- Numbers stay below the next one. -/
theorem bounded_insert {t t' : Table} {r : Row} (hinsert : t.insert r = .ok t') (h : ∀ s ∈ t.rows, s.seq < t.next) :
    ∀ s ∈ t'.rows, s.seq < t'.next := by
  have hnext : t'.next = t.next + 1 := by
    obtain ⟨-, rfl⟩ := insert_eq_ok hinsert
    rfl
  rw [hnext]
  exact forall_mem_insert hinsert (fun s hs => Nat.lt_succ_of_lt (h s hs)) (Nat.lt_succ_self t.next)

/-- Taking a dated row keeps the invariant. -/
theorem Sound.insert {t t' : Table} (h : t.Sound) {r : Row} (hdated : r.Dated) (hinsert : t.insert r = .ok t') :
    t'.Sound := by
  have hbounded := bounded_insert hinsert h.bounded
  have hdated' := forall_mem_insert hinsert h.dated hdated
  obtain ⟨hnew, rfl⟩ := insert_eq_ok hinsert
  refine ⟨?_, hbounded, ?_, hdated'⟩
  · refine List.pairwise_append.2 ⟨h.numbered, List.pairwise_singleton _ _, fun s hs u hu => ?_⟩
    rw [List.mem_singleton.1 hu]
    exact h.bounded s hs
  · refine List.pairwise_append.2 ⟨h.distinct, List.pairwise_singleton _ _, fun s hs u hu heq => ?_⟩
    rw [List.mem_singleton.1 hu] at heq
    obtain ⟨hw, ht, hk, hm⟩ := Row.sameIdentity_iff.1 heq
    exact hnew s hs (Row.sameIdentity_iff.2 ⟨hw.symm, ht.symm, hk.symm, hm.symm⟩)

end Table

/-- What holds of every store. -/
def Sound (s : Store) : Prop := ∀ t, s.table = some t → t.Sound

/-- A store has one table. -/
theorem table_unique {s : Store} {t u : Table} (h : s = ⟨some t⟩) (h' : s = ⟨some u⟩) : t = u :=
  Option.some.inj (Store.mk.inj (h.symm.trans h'))

/-- A store with a table is sound when the table is. -/
theorem sound_mk {t : Table} : Sound ⟨some t⟩ ↔ t.Sound := by
  constructor
  · exact fun h => h t rfl
  · intro h u hu
    obtain rfl := Option.some.inj hu
    exact h

/-! ## The operations -/

/-- An activity that goes on has the table of the store. -/
theorem table_of_tableFor {s : Store} {activity : Activity} {t : Table} (h : s.tableFor activity = .ok t) :
    s.table = some t := by
  unfold tableFor at h
  split at h
  · next htable =>
    cases h
    exact htable
  · cases h

/-- What a write that does not fail does: it takes away the row of the identity and adds a new one at the end. -/
theorem write_eq_ok {s s' : Store} {id : SnapshotId} {identity : Run} {fields : Fields} {podSpec : Option Fields}
    {createdAt : Timestamp} {answer : Snapshot} (h : s.write id identity fields podSpec createdAt = .ok (answer, s')) :
    answer = ⟨id, identity, fields, podSpec, createdAt.toUtc⟩ ∧ ∃ t t' stored, s.table = some t ∧ s' = ⟨some t'⟩ ∧
      createdAt.stored? = some stored ∧ (t.erase (·.isOf identity)).insert (rowOf answer stored) = .ok t' := by
  unfold write at h
  split at h
  · cases h
  · cases h
  next stored _ hstored =>
  obtain ⟨t, htable, h⟩ := bind_eq_ok h
  split at h
  · next t' hinsert =>
    cases h
    exact ⟨rfl, t, t', stored, table_of_tableFor htable, rfl, hstored, hinsert⟩
  · cases h

/-- What a removal that does not fail does. -/
theorem delete_eq_ok {s s' : Store} {identity : Run} {answer : Bool} (h : s.delete identity = .ok (answer, s')) :
    ∃ t, s.table = some t ∧ s' = ⟨some (t.erase (·.isOf identity))⟩ ∧ answer = t.rows.any (·.isOf identity) := by
  obtain ⟨t, htable, h⟩ := bind_eq_ok h
  obtain ⟨rfl, rfl⟩ := Prod.mk.inj (Except.ok.inj h)
  exact ⟨t, table_of_tableFor htable, rfl, rfl⟩

/-- What a prune that does not fail does: nothing, or it takes away the rows of the run keys that are not kept. -/
theorem prune_eq_ok {s s' : Store} {workflow task : String} {keep : Int} {answer : Nat}
    (h : s.prune workflow task keep = .ok (answer, s')) :
    (keep ≤ 0 ∧ answer = 0 ∧ s' = s) ∨
      (0 < keep ∧ ∃ t, s.table = some t ∧ s' = ⟨some (t.prune workflow task keep.toNat)⟩ ∧
        answer = t.rows.length - (t.prune workflow task keep.toNat).rows.length) := by
  unfold prune at h
  split at h
  · next hkeep =>
    cases h
    exact .inl ⟨hkeep, rfl, rfl⟩
  · next hkeep =>
    obtain ⟨t, htable, h⟩ := bind_eq_ok h
    obtain ⟨rfl, rfl⟩ := Prod.mk.inj (Except.ok.inj h)
    exact .inr ⟨Int.not_le.1 hkeep, t, table_of_tableFor htable, rfl, rfl⟩

/-- Writing keeps the invariant. -/
theorem sound_of_write {s s' : Store} (hs : s.Sound) {id : SnapshotId} {identity : Run} {fields : Fields}
    {podSpec : Option Fields} {createdAt : Timestamp} (hera : createdAt.InEra) {answer : Snapshot}
    (h : s.write id identity fields podSpec createdAt = .ok (answer, s')) : s'.Sound := by
  obtain ⟨-, t, t', stored, htable, rfl, hstored, hinsert⟩ := write_eq_ok h
  exact sound_mk.2 (((hs t htable).erase _).insert ⟨createdAt, hera, hstored⟩ hinsert)

/-- Removing keeps the invariant. -/
theorem sound_of_delete {s s' : Store} (hs : s.Sound) {identity : Run} {answer : Bool}
    (h : s.delete identity = .ok (answer, s')) : s'.Sound := by
  obtain ⟨t, htable, rfl, -⟩ := delete_eq_ok h
  exact sound_mk.2 ((hs t htable).erase _)

/-- Pruning keeps the invariant. -/
theorem sound_of_prune {s s' : Store} (hs : s.Sound) {workflow task : String} {keep : Int} {answer : Nat}
    (h : s.prune workflow task keep = .ok (answer, s')) : s'.Sound := by
  rcases prune_eq_ok h with ⟨-, -, rfl⟩ | ⟨-, t, htable, rfl, -⟩
  · exact hs
  · exact sound_mk.2 ((hs t htable).erase _)

/-- The stores that the operations lead to from the one without a table. Operations that fail change nothing. -/
inductive Reachable : Store → Prop where
  | blank : Reachable blank
  | migrate {s : Store} (h : Reachable s) : Reachable s.migrate
  | dropTable {s s' : Store} (h : Reachable s) (hdrop : s.dropTable = .ok s') : Reachable s'
  | write {s s' : Store}
      (h : Reachable s) {id : SnapshotId} {identity : Run} {fields : Fields} {podSpec : Option Fields}
      {createdAt : Timestamp} (hera : createdAt.InEra) {answer : Snapshot}
      (hwrite : s.write id identity fields podSpec createdAt = .ok (answer, s')) : Reachable s'
  | delete {s s' : Store} (h : Reachable s) {identity : Run} {answer : Bool}
      (hdelete : s.delete identity = .ok (answer, s')) : Reachable s'
  | prune {s s' : Store} (h : Reachable s) {workflow task : String} {keep : Int} {answer : Nat}
      (hprune : s.prune workflow task keep = .ok (answer, s')) : Reachable s'

/-- Making the table keeps the invariant. -/
theorem sound_migrate {s : Store} (hs : s.Sound) : s.migrate.Sound := by
  unfold migrate
  rw [sound_mk]
  cases htable : s.table with
  | none => exact .empty
  | some t => exact hs t htable

/-- The invariant holds of every store. -/
theorem Reachable.sound {s : Store} (h : Reachable s) : s.Sound := by
  induction h with
  | blank => exact nofun
  | migrate _ ih => exact sound_migrate ih
  | dropTable _ hdrop _ =>
    unfold Store.dropTable at hdrop
    split at hdrop
    · cases hdrop
      exact nofun
    · cases hdrop
  | write _ hera hwrite ih => exact sound_of_write ih hera hwrite
  | delete _ hdelete ih => exact sound_of_delete ih hdelete
  | prune _ hprune ih => exact sound_of_prune ih hprune

end Store

end SnapshotLedger
