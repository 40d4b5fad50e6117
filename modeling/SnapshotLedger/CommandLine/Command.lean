import SnapshotLedger.CommandLine.Options
import SnapshotLedger.Run

/-!
# Commands

What can be asked for on the command line, and how arguments ask for it. The store and the settings stand before
the word `snapshot`, then come the command and its options.
-/

namespace SnapshotLedger.CommandLine

/-- How the run key of a run is given. -/
inductive RunKeyChoice where
  | runId (id : String)
  /-- A timestamp, whose instant in universal time is the run key. -/
  | logicalDate (text : String)
  deriving DecidableEq, Repr

/-- How a run is given. -/
structure RunSelector where
  workflow : String
  task : String
  runKey : RunKeyChoice
  mapIndex : Option Nat := none
  deriving DecidableEq, Repr

/-- What a snapshot is taken of. Documents are given as text, or as the name of a file behind `@`. -/
structure CaptureRequest where
  run : RunSelector
  owner : String
  context : String
  bindings : String
  podSpec : Option String
  /-- Whether the oldest run keys stay. -/
  keepsAll : Bool
  deriving DecidableEq, Repr

/-- A command. -/
inductive Command where
  | capture (request : CaptureRequest)
  | inspect (run : RunSelector)
  | fields (run : RunSelector)
  | podSpec (run : RunSelector)
  | list (workflow : String) (task : Option String) (limit : Option Nat)
  | prune (workflow task : String) (keep : Option Int)
  | delete (run : RunSelector)
  deriving DecidableEq, Repr

/-- A command with the store that it works on and the settings that it follows. -/
structure Invocation where
  storePath : String
  settingsPath : Option String
  command : Command
  deriving DecidableEq, Repr

/-- The file of the store when none is named. -/
def usualStorePath : String := "./rendered_fields.sqlite3"

/-- The word that stands before the commands. -/
def groupName : String := "snapshot"

/-- The names of the commands. -/
inductive Action where
  | capture
  | inspect
  | fields
  | podSpec
  | list
  | prune
  | delete
  deriving DecidableEq, Repr

namespace Action

/-- All commands. -/
def all : List Action := [capture, inspect, fields, podSpec, list, prune, delete]

/-- The name of a command. -/
def name : Action → String
  | capture => "capture"
  | inspect => "show"
  | fields => "fields"
  | podSpec => "pod-spec"
  | list => "list"
  | prune => "prune"
  | delete => "delete"

/-- The command of a name. -/
def ofName? (name : String) : Option Action := all.find? (·.name = name)

/-- The options that give a run. -/
def runOptions : List OptionSpec :=
  [⟨"workflow-id", some .text, false⟩, ⟨"task-id", some .text, false⟩, ⟨"run-id", some .text, false⟩,
    ⟨"logical-date", some .text, false⟩, ⟨"map-index", some (.number 0 Run.greatestIndex), false⟩]

/-- The options of a command. -/
def options : Action → List OptionSpec
  | capture => runOptions ++ [⟨"owner-json", some .text, false⟩, ⟨"context-json", some .text, false⟩,
      ⟨"variables-json", some .text, false⟩, ⟨"pod-spec-json", some .text, false⟩, ⟨"no-prune", none, false⟩]
  | inspect | fields | podSpec | delete => runOptions
  | list => [⟨"workflow-id", some .text, false⟩, ⟨"task-id", some .text, false⟩, ⟨"limit", some .size, false⟩]
  | prune => [⟨"workflow-id", some .text, false⟩, ⟨"task-id", some .text, false⟩,
      ⟨"keep", some (.number Json.leastInteger Json.greatestInteger), true⟩]

end Action

/-- The run that some options give. -/
def RunSelector.ofOptions (values : OptionValues) : Except UsageError RunSelector := do
  let runKey ← match values.text? "run-id", values.text? "logical-date" with
    | some _, some _ => .error .conflict
    | some id, none => .ok (.runId id)
    | none, some date => .ok (.logicalDate date)
    | none, none => .error .missingOption
  let workflow ← values.text "workflow-id"
  let task ← values.text "task-id"
  .ok ⟨workflow, task, runKey, (values.number? "map-index").map Int.toNat⟩

/-- The document of an option without one: an object without members. -/
def emptyObject : String := "\x7b\x7d"

/-- What the options say that a snapshot is taken of. -/
def CaptureRequest.ofOptions (values : OptionValues) : Except UsageError CaptureRequest := do
  let run ← RunSelector.ofOptions values
  let owner ← values.text "owner-json"
  .ok {
    run := run
    owner := owner
    context := (values.text? "context-json").getD emptyObject
    bindings := (values.text? "variables-json").getD emptyObject
    podSpec := values.text? "pod-spec-json"
    keepsAll := values.has "no-prune" }

/-- The command that some options stand for behind its name. -/
def Command.ofOptions (action : Action) (values : OptionValues) : Except UsageError Command :=
  match action with
  | .capture => (CaptureRequest.ofOptions values).map capture
  | .inspect => (RunSelector.ofOptions values).map inspect
  | .fields => (RunSelector.ofOptions values).map fields
  | .podSpec => (RunSelector.ofOptions values).map podSpec
  | .delete => (RunSelector.ofOptions values).map delete
  | .list => do
    let workflow ← values.text "workflow-id"
    .ok (list workflow (values.text? "task-id") ((values.number? "limit").map Int.toNat))
  | .prune => do
    let workflow ← values.text "workflow-id"
    let task ← values.text "task-id"
    .ok (prune workflow task (values.number? "keep"))

namespace Invocation

/-- The level before the word `snapshot`. -/
def outerLevel : Level :=
  ⟨[⟨"db", some .path, false⟩, ⟨"config", some .path, false⟩], [groupName, helpName]⟩

/-- The level behind the word `snapshot`. -/
def groupLevel : Level := ⟨[], Action.all.map Action.name ++ [helpName]⟩

/-- What becomes of a request for help on a command, given by the names that lead to it. -/
def helpOn : List String → UsageError
  | [] => .helpRequested
  | [name] => if outerLevel.commands.contains name then .helpRequested else .unknownCommand
  | [group, name] => if group = groupName && groupLevel.commands.contains name then .helpRequested else .unknownCommand
  | _ => .unknownCommand

/-- The command that the arguments behind its name stand for. -/
def readAction (action : Action) (args : List String) : Except UsageError Command := do
  let (given, _) ← Level.scan ⟨action.options, []⟩ {} args
  let values ← given.settle
  Command.ofOptions action values

/-- The command that the arguments behind the word `snapshot` stand for. -/
def readGroup (args : List String) : Except UsageError Command := do
  let (given, rest) ← groupLevel.scan {} args
  let _ ← given.settle
  match rest with
  | [] => .error .nothingGiven
  | name :: args =>
    match Action.ofName? name with
    | some action => readAction action args
    | none => .error (helpOn (groupName :: args))

/-- What the arguments of a program ask for. -/
def ofArguments (args : List String) : Except UsageError Invocation := do
  let (given, rest) ← outerLevel.scan {} args
  match rest with
  | [] => do
    let values ← given.settle
    .error (if values.isEmpty then .nothingGiven else .missingCommand)
  | name :: args =>
    if name = groupName then do
      let command ← readGroup args
      let values ← given.settle
      .ok ⟨(values.text? "db").getD usualStorePath, values.text? "config", command⟩
    else .error (helpOn args)

end Invocation

end SnapshotLedger.CommandLine
