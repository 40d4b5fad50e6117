import SnapshotLedger.Proofs.Store.Invariant

/-!
# Stores in place

A store that is worked on in place is left in some state by work that fails as well. Here the operations are put
together from the statements that they send to the table, each of which takes effect at once; a write sends two,
as one transaction. Main statements: writing and pruning in place leave what the operations answer, and the
store as it was when they fail (`on_write`, `on_prune`).
-/

namespace SnapshotLedger.Store

/-- Work on a store in place, which leaves a store behind whether it fails or not. -/
abbrev Work (ε : Type) := ExceptT ε (StateM Store)

/-- The answer of an operation and the store that is left when its failure changes nothing. -/
def settled {ε α : Type} (s : Store) : Except ε (α × Store) → Except ε α × Store
  | .ok (a, after) => (.ok a, after)
  | .error e => (.error e, s)

/-- A failure changes nothing. -/
theorem settled_eq_error {ε α : Type} {s left : Store} {answer : Except ε (α × Store)} {e : ε}
    (h : settled s answer = (.error e, left)) : answer = .error e ∧ left = s := by
  cases answer with
  | ok p => cases h
  | error e' =>
    cases h
    exact ⟨rfl, rfl⟩

/-- An operation that does not fail leaves the store that it leads to. -/
theorem settled_eq_ok {ε α : Type} {s left : Store} {answer : Except ε (α × Store)} {a : α}
    (h : settled s answer = (.ok a, left)) : answer = .ok (a, left) := by
  cases answer with
  | ok p =>
    cases h
    rfl
  | error e => cases h

namespace Work

variable {ε ε' α β : Type}

/-- What the work answers, and the store that it leaves. -/
def on (x : Work ε α) (s : Store) : Except ε α × Store := (x.run.run s).run

/-- The work as one transaction: when it fails, the store is again what it was. -/
def atomically (x : Work ε α) : Work ε α := fun s =>
  match x.on s with
  | (.ok a, after) => (.ok a, after)
  | (.error e, _) => (.error e, s)

/-- The work with its errors seen from outside. -/
def adapt (x : Work ε α) (f : ε → ε') : Work ε' α := ExceptT.adapt f x

/-- The statement that takes away the row of an identity. -/
def clear (identity : Run) : Work Error Unit := do
  let t ← (← get).tableFor .clearingPrevious
  set (⟨some (t.erase (·.isOf identity))⟩ : Store)

/-- The statement that adds a row. -/
def add (r : Row) : Work Error Unit := do
  let t ← (← get).tableFor .inserting
  match t.insert r with
  | .ok t => set (⟨some t⟩ : Store)
  | .error e => throw (.table .inserting e)

/-- Writes the snapshot of an identity in place of the one before. -/
def write (id : SnapshotId) (identity : Run) (fields : Fields) (podSpec : Option Fields) (createdAt : Timestamp) :
    Work Error Snapshot :=
  match identity.blankPart?, createdAt.stored? with
  | some part, _ => throw (.blank part)
  | none, none => throw .beyondCalendar
  | none, some stored => do
    let snapshot : Snapshot := ⟨id, identity, fields, podSpec, createdAt.toUtc⟩
    atomically do
      clear identity
      add (rowOf snapshot stored)
    return snapshot

/-- The statement that removes the snapshots of a task except those of its newest run keys. -/
def prune (workflow task : String) (keep : Int) : Work Error Nat := do
  if keep ≤ 0 then return 0
  let t ← (← get).tableFor .pruning
  let kept := t.prune workflow task keep.toNat
  set (⟨some kept⟩ : Store)
  return t.rows.length - kept.rows.length

/-! ## One step after the other -/

variable {s after : Store}

/-- Work goes on where the work before it has ended. -/
theorem on_bind_ok {x : Work ε α} {f : α → Work ε β} {a : α} (h : x.on s = (.ok a, after)) :
    on (x >>= f) s = (f a).on after := by
  unfold on at h ⊢
  rw [ExceptT.run_bind, StateT.run_bind, Id.run_bind, h]

/-- Work ends where the work before it has failed. -/
theorem on_bind_error {x : Work ε α} {f : α → Work ε β} {e : ε} (h : x.on s = (.error e, after)) :
    on (x >>= f) s = (.error e, after) := by
  unfold on at h ⊢
  rw [ExceptT.run_bind, StateT.run_bind, Id.run_bind, h]
  rfl

/-- Work behind a step that needs no store. -/
theorem on_lift_bind {x : Except ε α} {f : α → Work ε β} {g : α → Except ε (β × Store)}
    (h : ∀ a, x = .ok a → (f a).on s = settled s (g a)) : on (liftM x >>= f) s = settled s (x >>= g) := by
  have hlift : on (liftM x : Work ε α) s = (x, s) := rfl
  cases x with
  | error e => exact on_bind_error hlift
  | ok a => exact (on_bind_ok hlift).trans (h a rfl)

/-- Work behind an operation in place. What is left by a failure of the work is asked of the whole, not of the
store in between. -/
theorem on_bind_settled {x : Work ε α} {answer : Except ε (α × Store)} {f : α → Work ε β}
    {g : α × Store → Except ε (β × Store)} (hx : x.on s = settled s answer)
    (h : ∀ a after, answer = .ok (a, after) → (f a).on after = settled s (g (a, after))) :
    on (x >>= f) s = settled s (answer >>= g) := by
  cases answer with
  | error e => exact on_bind_error hx
  | ok p => exact (on_bind_ok hx).trans (h p.1 p.2 rfl)

/-- A transaction ends as the work in it does, or where it has begun. -/
theorem on_atomically (x : Work ε α) (s : Store) : x.atomically.on s =
    match x.on s with
    | (.ok a, after) => (.ok a, after)
    | (.error e, _) => (.error e, s) := rfl

/-- Errors seen from outside change nothing about the store. -/
theorem on_adapt_settled {x : Work ε α} {answer : Except ε (α × Store)} (f : ε → ε') (h : x.on s = settled s answer) :
    (x.adapt f).on s = settled s (answer.mapError f) := by
  have hadapt : (x.adapt f).on s = ((x.on s).1.mapError f, (x.on s).2) := rfl
  rw [hadapt, h]
  cases answer <;> rfl

/-! ## The operations -/

/-- What adding a row leaves. -/
theorem on_add (t : Table) (r : Row) :
    (add r).on ⟨some t⟩ = settled ⟨some t⟩
      (((t.insert r).mapError (.table .inserting)).map fun t' => ((), ⟨some t'⟩)) := by
  have hinsert : (add r).on ⟨some t⟩ = on (match t.insert r with
      | .ok t' => set (⟨some t'⟩ : Store)
      | .error e => throw (.table .inserting e) : Work Error Unit) ⟨some t⟩ := rfl
  rw [hinsert]
  cases t.insert r <;> rfl

/-- A transaction whose second step fails leaves the store that its first step has found. -/
theorem on_atomically_clear_add (t : Table) (identity : Run) (r : Row) :
    (atomically do clear identity; add r).on ⟨some t⟩ = settled ⟨some t⟩
      ((((t.erase (·.isOf identity)).insert r).mapError (.table .inserting)).map fun t' => ((), ⟨some t'⟩)) := by
  have hboth : on (do clear identity; add r) ⟨some t⟩ = (add r).on ⟨some (t.erase (·.isOf identity))⟩ := on_bind_ok rfl
  rw [on_atomically, hboth, on_add]
  cases (t.erase (·.isOf identity)).insert r <;> rfl

/-- Writing in place leaves the store that the write leads to, and the store as it was when it fails. -/
theorem on_write (s : Store) (id : SnapshotId) (identity : Run) (fields : Fields) (podSpec : Option Fields)
    (createdAt : Timestamp) : (write id identity fields podSpec createdAt).on s =
      settled s (s.write id identity fields podSpec createdAt) := by
  unfold write Store.write
  cases identity.blankPart? with
  | some part => rfl
  | none =>
    cases createdAt.stored? with
    | none => rfl
    | some stored =>
      obtain ⟨_ | t⟩ := s
      · rfl
      · have hatomic :=
          on_atomically_clear_add t identity (rowOf ⟨id, identity, fields, podSpec, createdAt.toUtc⟩ stored)
        simp only [tableFor, bind, Except.bind]
        cases hinsert : (t.erase (·.isOf identity)).insert
          (rowOf ⟨id, identity, fields, podSpec, createdAt.toUtc⟩ stored) with
        | ok t' =>
          rw [hinsert] at hatomic
          exact on_bind_ok hatomic
        | error e =>
          rw [hinsert] at hatomic
          exact on_bind_error hatomic

/-- Pruning in place leaves the store that pruning leads to. -/
theorem on_prune (s : Store) (workflow task : String) (keep : Int) :
    (prune workflow task keep).on s = settled s (s.prune workflow task keep) := by
  unfold prune Store.prune
  split
  · rfl
  · obtain ⟨_ | t⟩ := s <;> rfl

end Work
end SnapshotLedger.Store
