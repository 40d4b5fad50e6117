import SnapshotLedger.Store.Table

/-!
# Retention

Of each task only the newest run keys are kept. A run key stands as high as the latest time of its rows, and of
two equally late ones the one that was written to last; with a run key go all the map indexes that it has.
-/

namespace SnapshotLedger.Store

/-- How high a run key stands among those of its task. -/
structure Standing where
  runKey : String
  /-- The latest stored time of its rows. -/
  createdAt : String
  /-- The greatest number of its rows. -/
  seq : Nat
  deriving DecidableEq, Repr

/-- The run keys of some rows, each of them once. -/
def runKeys : List Row → List String
  | [] => []
  | r :: rs => r.runKey :: (runKeys rs).filter (· ≠ r.runKey)

/-- The later of two stored times. -/
def later (a b : String) : String := if a < b then b else a

/-- How high a run key stands among some rows. -/
def standing (rows : List Row) (runKey : String) : Standing :=
  let own := rows.filter (·.runKey = runKey)
  ⟨runKey, own.foldl (fun t r => later t r.createdAt) "", own.foldl (fun n r => max n r.seq) 0⟩

/-- Whether a run key stands before another. -/
def Standing.before (a b : Standing) : Bool := b.createdAt < a.createdAt || (a.createdAt = b.createdAt && b.seq ≤ a.seq)

/-- The run keys of some rows, the highest first. -/
def ranking (rows : List Row) : List String :=
  (Sorting.sortBy Standing.before ((runKeys rows).map (standing rows))).map Standing.runKey

namespace Table

/-- The rows of a task of a workflow. -/
def group (t : Table) (workflow task : String) : List Row := t.rows.filter (·.isOfTask workflow task)

/-- The run keys of a task that are kept. -/
def keptRunKeys (t : Table) (workflow task : String) (keep : Nat) : List String :=
  (ranking (t.group workflow task)).take keep

/-- The table without the rows of a task whose run keys are not kept. -/
def prune (t : Table) (workflow task : String) (keep : Nat) : Table :=
  let kept := t.keptRunKeys workflow task keep
  t.erase fun r => r.isOfTask workflow task && !kept.contains r.runKey

end Table

end SnapshotLedger.Store
