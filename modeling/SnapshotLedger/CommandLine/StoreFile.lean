import SnapshotLedger.Json.Reader
import SnapshotLedger.Store.Basic

/-!
# Store files

A store is kept in a file as one document with its rows in order and the number for the next row, together with
the way in which its changes get there. Main statement: what is written is read back
(`StoreFile.ofJson?_toJson`).
-/

namespace SnapshotLedger.Store

namespace Row

/-- A text or null. -/
def optionalText : Option String → Json
  | some s => .string s
  | none => .null

/-- A row as an array of its columns. -/
def toJson (r : Row) : Json :=
  .array [.integer r.seq, .string r.id, .string r.workflow, .string r.task, .string r.runKey, .integer r.mapIndex,
    .string r.fields, optionalText r.podSpec, .string r.createdAt]

/-- The row that an array of its columns stands for. -/
def ofJson? : Json → Option Row
  | .array [.integer seq, .string id, .string workflow, .string task, .string runKey, .integer mapIndex, .string fields,
      podSpec, .string createdAt] =>
    match podSpec with
    | .string s => some ⟨seq.toNat, id, workflow, task, runKey, mapIndex, fields, some s, createdAt⟩
    | .null => some ⟨seq.toNat, id, workflow, task, runKey, mapIndex, fields, none, createdAt⟩
    | _ => none
  | _ => none

/-- A row is read back. -/
theorem ofJson?_toJson (r : Row) : ofJson? r.toJson = some r := by
  cases r with
  | mk seq id workflow task runKey mapIndex fields podSpec createdAt =>
    cases podSpec <;> simp [toJson, ofJson?, optionalText]

end Row

namespace Table

/-- A table as JSON. -/
def toJson (t : Table) : Json := .object [("next", .integer t.next), ("rows", .array (t.rows.map Row.toJson))]

/-- The table that JSON stands for. -/
def ofJson? : Json → Option Table
  | .object [("next", .integer next), ("rows", .array rows)] =>
    (rows.mapM Row.ofJson?).map fun rows => ⟨rows, next.toNat⟩
  | _ => none

/-- Rows are read back. -/
theorem mapM_ofJson?_toJson (rows : List Row) : (rows.map Row.toJson).mapM Row.ofJson? = some rows := by
  induction rows with
  | nil => rfl
  | cons r rs ih => simp [List.mapM_cons, Row.ofJson?_toJson, ih]

/-- A table is read back. -/
theorem ofJson?_toJson (t : Table) : ofJson? t.toJson = some t := by
  simp only [toJson, ofJson?, mapM_ofJson?_toJson, Option.map_some, Int.toNat_natCast]

end Table

end SnapshotLedger.Store

namespace SnapshotLedger.Store

/-- A store as JSON. -/
def toJson (s : Store) : Json :=
  match s.table with
  | some t => .object [("snapshots", t.toJson)]
  | none => .object []

/-- The store that JSON stands for. -/
def ofJson? : Json → Option Store
  | .object [] => some blank
  | .object [("snapshots", t)] => (Store.Table.ofJson? t).map fun t => ⟨some t⟩
  | _ => none

/-- A store is read back. -/
theorem ofJson?_toJson (s : Store) : ofJson? s.toJson = some s := by
  cases s with
  | mk table =>
    cases table with
    | none => rfl
    | some t => simp [toJson, ofJson?, Store.Table.ofJson?_toJson]

end SnapshotLedger.Store

namespace SnapshotLedger.CommandLine

/-- How changes get into the file of a store. -/
inductive Journal where
  /-- What is to be overwritten is set aside in a second file. -/
  | rollback
  /-- Changes are collected in a second file, which all users of the store share. -/
  | ahead
  deriving DecidableEq, Repr

namespace Journal

/-- The name of the way. -/
def name : Journal → String
  | rollback => "rollback"
  | ahead => "ahead"

/-- The way of a name. -/
def ofName? (s : String) : Option Journal :=
  if s = "rollback" then some rollback else if s = "ahead" then some ahead else none

/-- A way is found by its name. -/
theorem ofName?_name (j : Journal) : ofName? j.name = some j := by
  cases j <;> decide

end Journal

/-- A store as it is kept in a file. -/
structure StoreFile where
  store : Store
  journal : Journal

namespace StoreFile

/-- A store in its file as JSON. -/
def toJson (f : StoreFile) : Json := .object [("journal", .string f.journal.name), ("store", f.store.toJson)]

/-- The store in its file that JSON stands for. -/
def ofJson? : Json → Option StoreFile
  | .object [("journal", .string journal), ("store", store)] => do
    let journal ← Journal.ofName? journal
    let store ← Store.ofJson? store
    return ⟨store, journal⟩
  | _ => none

/-- A store in its file is read back. -/
theorem ofJson?_toJson (f : StoreFile) : ofJson? f.toJson = some f := by
  simp [toJson, ofJson?, Journal.ofName?_name, Store.ofJson?_toJson]

/-- The text in which a store is kept. -/
def text (f : StoreFile) : String := f.toJson.compact

/-- The store that is kept in a text. -/
def ofText? (text : String) : Option StoreFile := (Json.read text).toOption.bind ofJson?

end StoreFile

end SnapshotLedger.CommandLine
