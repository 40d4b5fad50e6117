import SnapshotLedger.CommandLine.Execution
import SnapshotLedger.CommandLine.StoreFile

/-!
# The program

Looks at the files that a command is about, executes the command, prints its report, and keeps the store.
-/

namespace SnapshotLedger.Program

open CommandLine

/-- The path of a place, if it is a text. -/
def pathOf? (place : Place) : Option String := String.fromUTF8? ⟨place.path.toArray⟩

/-- What octets hold. -/
def contentOf (octets : ByteArray) : FileContent :=
  match String.fromUTF8? octets with
  | none => .binary
  | some text =>
    match StoreFile.ofText? text with
    | some file => .store file
    | none => .text text

/-- The number of the system's error for a folder that is read like a file. -/
def folderCode : UInt32 := 21

/-- The workspace with what is found at a place. -/
def look (w : Workspace) (place : Place) : IO Workspace := do
  if w.hasFolder place || (w.file? place).isSome then return w
  let some path := pathOf? place | return w
  try
    let octets ← IO.FS.readBinFile path
    return w.put place (contentOf octets)
  catch
    | .inappropriateType _ code _ =>
      return if code = folderCode then { w with folders := place :: w.folders } else w
    | _ => return w

/-- The workspace of the files that a command is about. -/
def workspaceFor (i : Invocation) : IO Workspace := do
  let documents := i.documentPaths.flatMap fun path => Place.along (FileName.ofText path)
  let store := i.storePlace?.toList.flatMap fun place => place.folders ++ [place]
  (documents ++ store).foldlM look {}

/-- The variables that the system gives to the program. -/
def environment : IO Environment := do
  let bytes ← IO.FS.readBinFile "/proc/self/environ"
  let entries := Text.splitAt '\x00' ((String.fromUTF8? bytes).getD "").toList
  return entries.filterMap fun entry =>
    match Text.splitAt '=' entry with
    | name :: value :: rest => some (String.ofList name, String.ofList (['='].intercalate (value :: rest)))
    | _ => none

/-- The time of a file made just now. -/
def now : IO Timestamp := do
  let (_, path) ← IO.FS.createTempFile
  let time := (← path.metadata).modified
  IO.FS.removeFile path
  return ⟨time.sec * ClockReading.nanosPerSecond + time.nsec.toNat, 0⟩

/-- A number of ten random bytes. -/
def chance : IO Nat := do
  let bytes ← IO.getRandomBytes 10
  return bytes.foldl (fun n byte => 256 * n + byte.toNat) 0

/-- Keeps the store of a command in its file. -/
def keep (before w : Workspace) (i : Invocation) : IO Unit := do
  let some place := i.storePlace? | return
  let some path := pathOf? place | return
  match w.file? place with
  | some (.store file) => IO.FS.writeFile path file.text
  | some (.text s) => if (before.file? place).isNone then IO.FS.writeFile path s
  | _ => return

/-- Executes what the arguments ask for. -/
def run (args : List String) : IO UInt32 := do
  match Invocation.ofArguments args with
  | .error e => do
    IO.eprintln ("error: " ++ e.message)
    return 2
  | .ok i => do
    let before ← workspaceFor i
    let time ← now
    let id := SnapshotId.make (time.nanos / 1000000).toNat (← chance)
    let (answer, w) := i.execute ⟨← environment, id, time⟩ before
    keep before w i
    match answer with
    | .ok report => do
      IO.print report.text
      return 0
    | .error e => do
      IO.eprintln ("error: " ++ e.chain.message)
      return 1

end SnapshotLedger.Program

/-- Runs the program with its arguments. -/
def main (args : List String) : IO UInt32 := SnapshotLedger.Program.run args
