import SnapshotLedger.CommandLine.Opening
import SnapshotLedger.Error

/-!
# Why a command fails
-/

namespace SnapshotLedger.CommandLine

/-- Why a command fails. -/
inductive CommandError where
  | settingsFile (path : String) (fault : FileFault)
  | settingsText (path : String) (error : Json.ReadError)
  | settings (path : String) (fault : SettingsFault)
  | store (path : String) (fault : OpenFault)
  | logicalDate (text : String) (fault : DateFault)
  /-- A run whose identity may not be stored. -/
  | run (error : LedgerError)
  | documentFile (path : String) (fault : FileFault)
  /-- A document that cannot be read, from a file if that is named. -/
  | document (path : Option String) (error : Json.ReadError)
  /-- A document that does not stand for what its option asks for. -/
  | argument (option : String) (error : LedgerError)
  | variablesNotObject
  | variableNotScalar (name : String)
  | redaction (error : Redaction.Error)
  | capture (identity : Run) (error : LedgerError)
  | storage (error : Store.Error)
  /-- A snapshot that cannot be reported. -/
  | report (error : LedgerError)

/-- The failure of a step in opening the store of a path. -/
def OpeningStep.failure (path : String) : OpeningStep → String
  | finding => "failed to open sqlite database at " ++ path
  | configuring => "failed to configure sqlite pragmas"
  | preparing => "failed to ensure schema_migrations exists"
  | registering => "failed to register rendered snapshot schema migration"

namespace FileProblem

/-- The problem in words. -/
def message : FileProblem → String
  | cannotOpen => "unable to open database file"
  | unreadable => "disk I/O error"
  | notStore => "file is not a database"
  | readOnly => "attempt to write a readonly database"

/-- The number of the problem with what it stands for. -/
def code : FileProblem → String
  | cannotOpen => "Error code 14: Unable to open the database file"
  | unreadable => "Error code 266: Error reading from disk"
  | notStore => "Error code 26: File opened that is not a database file"
  | readOnly => "Error code 8: Attempt to write a readonly database"

end FileProblem

/-- The explanations of an address that leads to no store, after the first one. -/
def AddressFault.reasons : AddressFault → List String
  | withNul place =>
    let message := "nul byte found in provided data at position: " ++ toString place
    [message, message]
  | foreignHost host => ["invalid uri authority: " ++ host, "Error code 1: SQL error or missing database"]
  | unknownAccess name => ["no such access mode: " ++ name, "Error code 1: SQL error or missing database"]
  | unknownSharing name => ["no such cache mode: " ++ name, "Error code 1: SQL error or missing database"]
  | accessNotAllowed name => ["access mode not allowed: " ++ name, "Error code 3: Access permission denied"]
  | unknownBacking name => ["no such vfs: " ++ name, "Error code 1: SQL error or missing database"]

namespace OpenFault

/-- The explanations of a store that cannot be opened. The path stands in them where its file was not found. -/
def chain (path : String) : OpenFault → Chain
  | address fault => (OpeningStep.finding.failure path :: fault.reasons).map .text
  | file .finding .cannotOpen =>
    [.text (OpeningStep.finding.failure path), .text (FileProblem.cannotOpen.message ++ ": " ++ path),
      .text FileProblem.cannotOpen.code]
  | file step problem => [.text (step.failure path), .text problem.message, .text problem.code]

end OpenFault

namespace CommandError

/-- The explanations of the error. -/
def chain : CommandError → Chain
  | settingsFile path fault => [.text ("failed to read settings file " ++ path), .text fault.message]
  | settingsText path error => [.text ("failed to parse settings file " ++ path), .unreadable error]
  | settings path fault => .text ("invalid settings in " ++ path) :: (LedgerError.configuration fault).chain
  | store path fault => fault.chain path
  | logicalDate text fault => .text ("invalid --logical-date " ++ text) :: fault.explanations.map .text
  | run error => error.chain
  | documentFile path fault => [.text ("failed to read JSON file " ++ path), .text fault.message]
  | document (some path) error => [.text ("invalid JSON in " ++ path), .unreadable error]
  | document none error => [.text "invalid JSON argument", .unreadable error]
  | argument option error => .text ("invalid --" ++ option) :: error.chain
  | variablesNotObject => [.text "--variables-json MUST be a JSON object"]
  | variableNotScalar name => [.text ("variable " ++ name ++ " MUST be a string, number, or bool")]
  | redaction error => [.text ("invalid redaction settings: " ++ error.message)]
  | capture identity error => .text ("failed to capture snapshot for " ++ identity.display) :: error.chain
  | storage error => error.chain
  | report error => [.text error.message]

end CommandError

end SnapshotLedger.CommandLine
