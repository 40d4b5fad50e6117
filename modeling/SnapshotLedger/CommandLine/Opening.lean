import SnapshotLedger.CommandLine.StoreAddress
import SnapshotLedger.CommandLine.Workspace

/-!
# Opening stores

A store is opened in steps: its file is found or made, the way in which changes get into it is set, and then its
tables are made and their version is noted, which needs the right to write even when everything is there
already. A step that fails leaves the file as the steps before it have made it.

The path of a store is resolved before any folder is entered, so `missing/../x` is `x`; only a file in the place
of a folder and a name that no file can have are noticed on the way.
-/

namespace SnapshotLedger.CommandLine

/-- What is wrong with the file of a store. -/
inductive FileProblem where
  /-- There can be no file at that place, or none beside it. -/
  | cannotOpen
  | unreadable
  /-- The file holds something else. -/
  | notStore
  | readOnly
  deriving DecidableEq, Repr

/-- A step in opening a store. -/
inductive OpeningStep where
  | finding
  | configuring
  | preparing
  | registering
  deriving DecidableEq, Repr

/-- Why a store cannot be opened. -/
inductive OpenFault where
  | address (fault : AddressFault)
  | file (step : OpeningStep) (problem : FileProblem)
  deriving DecidableEq, Repr

/-- A store that is open. -/
structure OpenStore where
  store : Store
  /-- The place of its file, and how changes get there. -/
  home? : Option (Place × Journal)

/-- The length of the longest text that passes for an empty store. -/
def longestBlank : Nat := 1

/-- The end of the name of the file in which a rollback journal is kept. -/
def journalEnding : FileName := FileName.ofText "-journal"

/-- Whether there can be a rollback journal beside a file. -/
def canJournal (place : Place) : Bool := !FileName.isTooLong (place.name ++ journalEnding)

namespace FileUse

/-- Whether the store may be changed. -/
def writable (use : FileUse) : Bool := use.access ≠ .read && !use.frozen

end FileUse

namespace FileContent

/-- The store in a file. A blank file is a store without tables. -/
def store? : FileContent → Option StoreFile
  | store f => some f
  | text s => if Text.utf8Length s.toList ≤ longestBlank then some ⟨.blank, .rollback⟩ else none
  | binary => none

end FileContent

namespace StoreFile

/-- Sets the way in which changes get into the file: they are collected beside it, if users can share what is there. -/
def configure (place : Place) (use : FileUse) (f : StoreFile) : Except FileProblem StoreFile :=
  if use.frozen then .ok f
  else if f.journal = .ahead then if use.sharing then .ok f else .error .cannotOpen
  else if !use.sharing then .ok f
  else if !use.writable then .error .readOnly
  else if canJournal place then .ok { f with journal := .ahead }
  else .error .cannotOpen

/-- Makes the tables of the store, if they are missing, and notes their version. -/
def migrate (place : Place) (use : FileUse) (f : StoreFile) : Except OpenFault StoreFile :=
  match f.store.table with
  | some _ => if use.writable then .ok f else .error (.file .registering .readOnly)
  | none =>
    if !use.writable then .error (.file .preparing .readOnly)
    else if f.journal = .rollback && !canJournal place then .error (.file .preparing .cannotOpen)
    else .ok { f with store := f.store.migrate }

end StoreFile

namespace Workspace

/-- Whether a path can pass a place, be there something or not. -/
def canPass (w : Workspace) (place : Place) : Bool :=
  (w.file? place.dropLast).isNone && !(w.hasFolder place.dropLast && place.name.isTooLong)

/-- The place that a path leads to when the folders on the way need not be there. -/
def resolve? (w : Workspace) (path : List UInt8) : Option Place :=
  if (Place.along path).all w.canPass then some (Place.ofPath path) else none

/-- The place of the file of a store. The file need not be there if it may be made. -/
def find (w : Workspace) (path : List UInt8) (use : FileUse) : Except FileProblem Place :=
  match w.resolve? path with
  | none => .error .cannotOpen
  | some place =>
    if place = Place.root then .error .cannotOpen
    else if w.hasFolder place then .error (if use.access = .read then .unreadable else .cannotOpen)
    else if !w.hasFolder place.dropLast then .error .cannotOpen
    else if (w.file? place).isNone && use.access ≠ .create then .error .cannotOpen
    else .ok place

/-- Opens the store in a file that is there, or in one that has just been made. -/
def openFile (w : Workspace) (place : Place) (use : FileUse) : Except OpenFault StoreFile := do
  let some f := ((w.file? place).getD (.text "")).store? | .error (.file .configuring .notStore)
  let f ← (f.configure place use).mapError (.file .configuring)
  f.migrate place use

/-- The workspace with a blank file at a place where there was none. -/
def touch (w : Workspace) (place : Place) : Workspace :=
  if (w.file? place).isNone then w.put place (.text "") else w

/-- Opens the store at an address. -/
def openAddress (w : Workspace) : StoreAddress → Except OpenFault OpenStore × Workspace
  | .nowhere writable =>
    (if writable then .ok ⟨Store.blank.migrate, none⟩ else .error (.file .preparing .readOnly), w)
  | .file path use =>
    match w.find path use with
    | .error problem => (.error (.file .finding problem), w)
    | .ok place =>
      match w.openFile place use with
      | .error fault => (.error fault, w.touch place)
      | .ok f => (.ok ⟨f.store, some (place, f.journal)⟩, w.put place (.store f))

/-- Opens the store that a text names. -/
def openStore (w : Workspace) (path : String) : Except OpenFault OpenStore × Workspace :=
  match StoreAddress.ofText path with
  | .error fault => (.error (.address fault), w)
  | .ok address => w.openAddress address

/-- The workspace with an open store in its file. -/
def keepStore (w : Workspace) (s : OpenStore) : Workspace :=
  match s.home? with
  | none => w
  | some (place, journal) => w.put place (.store ⟨s.store, journal⟩)

end Workspace

end SnapshotLedger.CommandLine
