import SnapshotLedger.CommandLine.Command
import SnapshotLedger.CommandLine.Error
import SnapshotLedger.CommandLine.Report
import SnapshotLedger.Environment
import SnapshotLedger.Raw.Decode
import SnapshotLedger.Recorder
import SnapshotLedger.Redaction.Masker

/-!
# Executing commands

A command is executed on a store under some settings. The answer is a report or the reason for its failure,
together with the store as the command leaves it. Of a snapshot that is taken, the values of all variables with
sensitive names are hidden, whether they were given with the command or come from the environment.

`Invocation.execute` adds what lies around this: it reads the settings, opens the store before the command and
keeps it in its file behind it, also when the command has failed.
-/

namespace SnapshotLedger.CommandLine

/-- What a command finds when it is executed. -/
structure Occasion where
  environment : Environment
  /-- The identifier for a new snapshot. -/
  id : SnapshotId
  now : Timestamp

/-- What stands before the name of a file in an argument. -/
def fileSign : Char := '@'

/-- The file that an argument names. -/
def namedFile? (arg : String) : Option String :=
  match arg.toList with
  | c :: r => if c = fileSign then some (String.ofList r) else none
  | [] => none

/-- The document that an argument holds or names. -/
def readDocument (w : Workspace) (arg : String) : Except CommandError Json :=
  match namedFile? arg with
  | some path => do
    let text ← (w.readText path).mapError (.documentFile path)
    (Json.read text).mapError (.document (some path))
  | none => (Json.read arg).mapError (.document none)

/-- The text of a variable. -/
def variableText? : Json → Option String
  | .string s => some s
  | .null | .array _ | .object _ => none
  | v => some v.compact

/-- One variable. -/
def readVariable (entry : String × Json) : Except CommandError (String × String) :=
  match variableText? entry.2 with
  | some text => .ok (entry.1, text)
  | none => .error (.variableNotScalar entry.1)

/-- The variables that an object gives, in order of their names. -/
def readVariables : Json → Except CommandError (List (String × String))
  | .object ms => do
    let bindings ← ms.mapM readVariable
    .ok (Entries.ofList bindings)
  | _ => .error .variablesNotObject

namespace RunSelector

/-- The run key chosen. -/
def readRunKey : RunKeyChoice → Except CommandError String
  | .runId id => .ok id
  | .logicalDate text => do
    let date ← (Timestamp.readRfc3339 text).mapError (.logicalDate text)
    (Run.logicalRunKey date).mapError .run

/-- The identity of the run, none of whose parts is blank. -/
def identity (s : RunSelector) : Except CommandError Run := do
  let runKey ← readRunKey s.runKey
  let identity : Run := ⟨s.workflow, s.task, runKey, s.mapIndex⟩
  identity.validate.mapError .run
  .ok identity

end RunSelector

/-- Everything that a snapshot is taken of. -/
structure CaptureInput where
  identity : Run
  owner : Owner
  context : Context
  bindings : List (String × String)
  podSpec : Option Fields

namespace CaptureRequest

/-- The owner in a document. -/
def readOwner (v : Json) : Except CommandError Owner :=
  (Owner.ofJson v).mapError fun fault => .argument "owner-json" (.invalidField fault)

/-- The context in a document. -/
def readContext (v : Json) : Except CommandError Context := (Context.ofJson v).mapError (.argument "context-json")

/-- The fields of a pod in a document. -/
def readPodSpec (v : Json) : Except CommandError Fields := (Fields.ofJson v).mapError (.argument "pod-spec-json")

/-- The documents of a request, read one after the other. -/
def read (w : Workspace) (r : CaptureRequest) : Except CommandError CaptureInput := do
  let identity ← r.run.identity
  let owner ← readOwner (← readDocument w r.owner)
  let context ← readContext (← readDocument w r.context)
  let bindings ← readVariables (← readDocument w r.bindings)
  let podSpec ← match r.podSpec with
    | some arg => do
      let spec ← readPodSpec (← readDocument w arg)
      .ok (some spec)
    | none => .ok none
  .ok ⟨identity, owner, context, bindings, podSpec⟩

end CaptureRequest

namespace CaptureInput

/-- The variables of an environment. -/
def environmentBindings (env : Environment) : List (String × String) := Environment.bindings Environment.usualStem env

/-- The variables that expressions refer to: those given first, then those of the environment. -/
def valueOf? (c : CaptureInput) (env : Environment) : Variables := fun name =>
  (c.bindings.lookup name).or (Environment.valueOf? Environment.usualStem env name)

/-- The masker that hides the values of all sensitive variables. -/
def masker (c : CaptureInput) (settings : Settings) (env : Environment) : Except CommandError Masker := do
  let m ← (Masker.ofSettings settings).mapError .redaction
  .ok (m.withVariables (c.bindings ++ environmentBindings env)).1

/-- The recorder for a snapshot. -/
def recorder (c : CaptureInput) (settings : Settings) (env : Environment) : Except CommandError Recorder := do
  let m ← c.masker settings env
  .ok ⟨Template.render (c.valueOf? env) c.context, m.policy, settings⟩

/-- Takes the snapshot. -/
def record (c : CaptureInput) (settings : Settings) (o : Occasion) (store : Store) :
    Except CommandError (Recording × Store) := do
  let recorder ← c.recorder settings o.environment
  (recorder.record store o.id o.now c.identity c.owner fun _ => .ok c.podSpec).mapError (.capture c.identity)

end CaptureInput

/-- The settings without a limit on run keys. -/
def unlimited (settings : Settings) : Settings := { settings with retention := 0 }

/-- The report of a snapshot. -/
def reportSnapshot (s : Snapshot) : Except CommandError SnapshotReport := (SnapshotReport.ofSnapshot s).mapError .report

/-- The snapshot of a run. -/
def inspectRun (store : Store) (run : RunSelector) : Except CommandError Report := do
  let identity ← run.identity
  match ← (store.get? identity).mapError .storage with
  | some snapshot => (reportSnapshot snapshot).map fun r => .snapshot (some r)
  | none => .ok (.snapshot none)

/-- The rendered fields of a run. -/
def fieldsOfRun (store : Store) (run : RunSelector) : Except CommandError Report := do
  let identity ← run.identity
  let content ← (store.fields? identity).mapError .storage
  .ok (.fields content)

/-- The fields of the pod of a run. -/
def podSpecOfRun (store : Store) (run : RunSelector) : Except CommandError Report := do
  let identity ← run.identity
  let content ← (store.podSpec? identity).mapError .storage
  .ok (.fields content)

/-- The snapshots of a workflow, or of one of its tasks. -/
def listWorkflow (store : Store) (workflow : String) (task : Option String) (limit : Option Nat) :
    Except CommandError Report := do
  let snapshots ← (store.list workflow task limit).mapError .storage
  let reports ← snapshots.mapM reportSnapshot
  .ok (.listing reports)

/-- Takes a snapshot and records it. -/
def captureRun (o : Occasion) (w : Workspace) (settings : Settings) (store : Store) (r : CaptureRequest) :
    Except CommandError (Recording × Store) := do
  let input ← r.read w
  input.record (if r.keepsAll then unlimited settings else settings) o store

/-- Removes the snapshot of a run. -/
def deleteRun (store : Store) (run : RunSelector) : Except CommandError (DeletionReport × Store) := do
  let identity ← run.identity
  let (deleted, store) ← (store.delete identity).mapError .storage
  .ok ({ identity := identity.display, deleted := deleted }, store)

/-- Removes the oldest run keys of a task and counts what remains. -/
def pruneTask (store : Store) (workflow task : String) (keep : Int) :
    Except CommandError (PruneReport × Store) := do
  let (deleted, store) ← (store.prune workflow task keep).mapError .storage
  let remaining ← (store.count workflow task).mapError .storage
  .ok ({ workflow := workflow, task := task, keep := keep, deleted := deleted, remaining := remaining }, store)

/-- The report of a snapshot that has been taken. -/
def reportRecording (r : Recording) : Except CommandError Report := do
  let snapshot ← reportSnapshot r.snapshot
  .ok (.capture { pruned := r.pruned, snapshot := snapshot })

/-- The answer of a command that changes a store, and the store, which a failure leaves as it was. -/
def answerChange {α : Type} (store : Store) (report : α → Except CommandError Report) :
    Except CommandError (α × Store) → Except CommandError Report × Store
  | .ok (a, changed) => (report a, changed)
  | .error e => (.error e, store)

/-- Executes a command on a store. -/
def Command.execute (o : Occasion) (w : Workspace) (settings : Settings) (store : Store) :
    Command → Except CommandError Report × Store
  | capture r => answerChange store reportRecording (captureRun o w settings store r)
  | inspect run => (inspectRun store run, store)
  | fields run => (fieldsOfRun store run, store)
  | podSpec run => (podSpecOfRun store run, store)
  | list workflow task limit => (listWorkflow store workflow task limit, store)
  | prune workflow task keep =>
    answerChange store (fun r => .ok (.prune r)) (pruneTask store workflow task (keep.getD settings.retention))
  | delete run => answerChange store (fun r => .ok (.deletion r)) (deleteRun store run)

/-- The settings in a file, or the usual ones. -/
def readSettings (w : Workspace) : (path : Option String) → Except CommandError Settings
  | none => .ok .usual
  | some path => do
    let text ← (w.readText path).mapError (.settingsFile path)
    let v ← (Json.read text).mapError (.settingsText path)
    (Settings.ofJson v).mapError (.settings path)

namespace Invocation

/-- The paths of all documents that a command reads. -/
def documentPaths (i : Invocation) : List String :=
  let arguments := match i.command with
    | .capture r => r.owner :: r.context :: r.bindings :: r.podSpec.toList
    | _ => []
  i.settingsPath.toList ++ arguments.filterMap namedFile?

/-- The place of the file in which the store is kept, if there is one. -/
def storePlace? (i : Invocation) : Option Place :=
  match StoreAddress.ofText i.storePath with
  | .ok address => address.place?
  | .error _ => none

/-- Executes a command among the files around it. -/
def execute (o : Occasion) (w : Workspace) (i : Invocation) : Except CommandError Report × Workspace :=
  match readSettings w i.settingsPath with
  | .error e => (.error e, w)
  | .ok settings =>
    match w.openStore i.storePath with
    | (.error fault, w) => (.error (.store i.storePath fault), w)
    | (.ok s, w) =>
      let (answer, store) := i.command.execute o w settings s.store
      (answer, w.keepStore { s with store := store })

end Invocation

end SnapshotLedger.CommandLine
