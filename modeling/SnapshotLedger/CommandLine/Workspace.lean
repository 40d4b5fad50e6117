import SnapshotLedger.CommandLine.Place
import SnapshotLedger.CommandLine.StoreFile

/-!
# The files around a command

A command reads documents from files and keeps its store in one. A workspace holds the files that a command can
see, by their places. A document is found by going from folder to folder, so everything on the way has to be
there.
-/

namespace SnapshotLedger.CommandLine

/-- What a file holds. -/
inductive FileContent where
  | text (s : String)
  | store (file : StoreFile)
  /-- Octets that are no text. -/
  | binary

/-- Files and folders by their places. The directory of the command, at the empty place, is always there. -/
structure Workspace where
  files : List (Place × FileContent) := []
  folders : List Place := []

/-- Why a file cannot be read as a text. -/
inductive FileFault where
  | missing
  /-- Something that would have to be a folder is a file. -/
  | notFolder
  | isFolder
  /-- A name or the whole path is longer than any may be. -/
  | tooLong
  /-- A path with a NUL character. -/
  | withNul
  | notText
  deriving DecidableEq, Repr

/-- The fault in words. -/
def FileFault.message : FileFault → String
  | missing => "No such file or directory (os error 2)"
  | notFolder => "Not a directory (os error 20)"
  | isFolder => "Is a directory (os error 21)"
  | tooLong => "File name too long (os error 36)"
  | withNul => "file name contained an unexpected NUL byte"
  | notText => "stream did not contain valid UTF-8"

/-- The number of octets in the longest path that is followed. -/
def longestPath : Nat := 4095

namespace Workspace

/-- The workspace of some files given by their paths, with the folders that these lie in. -/
def ofFiles (files : List (String × FileContent)) : Workspace :=
  let placed := files.map fun f => (Place.ofPath (FileName.ofText f.1), f.2)
  ⟨placed, placed.flatMap fun f => f.1.folders⟩

/-- What is in the file at a place. -/
def file? (w : Workspace) (place : Place) : Option FileContent := w.files.lookup place

/-- Whether there is a folder at a place. -/
def hasFolder (w : Workspace) (place : Place) : Bool := place.isFixed || w.folders.contains place

/-- The workspace with a file at a place. -/
def put (w : Workspace) (place : Place) (content : FileContent) : Workspace :=
  { w with files := (place, content) :: w.files.filter fun f => f.1 ≠ place }

/-- A file that is put at a place is there. -/
theorem file?_put_self (w : Workspace) (place : Place) (content : FileContent) :
    (w.put place content).file? place = some content := by
  simp [put, file?]

/-- Files at other places stay as they are. -/
theorem file?_put_of_ne (w : Workspace) {place other : Place} (content : FileContent) (h : other ≠ place) :
    (w.put place content).file? other = w.file? other := by
  have hne : (other == place) = false := beq_false_of_ne h
  simp only [put, file?, List.lookup_cons, hne]
  induction w.files with
  | nil => rfl
  | cons f fs ih =>
    obtain ⟨k, v⟩ := f
    by_cases hk : k = place
    · subst hk
      rw [List.filter_cons_of_neg (by simp), ih, List.lookup_cons, hne]
    · rw [List.filter_cons_of_pos (by simpa using hk), List.lookup_cons, List.lookup_cons, ih]

/-- Whether a folder is where a path goes on; if not, why not. -/
def enter (w : Workspace) (place : Place) : Except FileFault Unit :=
  if w.hasFolder place then .ok ()
  else match w.file? place with
    | some _ => .error .notFolder
    | none => .error .missing

/-- The place that a name leads to from a folder. -/
def goOn (w : Workspace) (place : Place) (name : FileName) : Except FileFault Place := do
  w.enter place
  if name.isTooLong then .error .tooLong
  .ok (place.step name)

/-- The place that a path leads to when all places on the way are folders. -/
def walk (w : Workspace) (path : List UInt8) : Except FileFault Place :=
  (Place.namesOf path).foldlM w.goOn (Place.start path)

/-- The text in the file at a place. -/
def textAt (w : Workspace) (place : Place) : Except FileFault String :=
  if w.hasFolder place then .error .isFolder
  else match w.file? place with
    | some (.text s) => .ok s
    | some (.store _) | some .binary => .error .notText
    | none => .error .missing

/-- The text of a file. -/
def readText (w : Workspace) (path : String) : Except FileFault String := do
  let octets := FileName.ofText path
  if octets.contains 0 then .error .withNul
  if octets.isEmpty then .error .missing
  if longestPath < octets.length then .error .tooLong
  w.textAt (← w.walk octets)

end Workspace

end SnapshotLedger.CommandLine
