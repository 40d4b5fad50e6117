import SnapshotLedger.Json.Basic
import SnapshotLedger.Text.Ascii

/-!
# Options

Arguments are read level by level. A level has options and may have commands, one of which opens the next level.
An option is given as `--name value` or `--name=value` and at most once. Behind `--name`, any argument that does
not begin with a hyphen is the value, even the name of a command; an option for numbers that may be negative
takes every argument as its value.

A value is looked at when the next option is met or the level ends (`Given.settle`), so a fault further on in
another argument may be noticed before it.
-/

namespace SnapshotLedger.CommandLine

/-- Why arguments are no command. A request for help is among the reasons. -/
inductive UsageError where
  | helpRequested
  /-- Nothing was given at a place where a command has to follow. -/
  | nothingGiven
  /-- Options were given at a place where a command has to follow. -/
  | missingCommand
  | unknownCommand
  | unknownArgument
  /-- An option without its value, or with an empty one that may not be empty. -/
  | missingValue
  /-- A value that is not of the kind that its option takes. -/
  | wrongValue
  /-- A value for an option that takes none. -/
  | unwantedValue
  /-- An option that is given twice, or beside one that excludes it. -/
  | conflict
  | missingOption
  deriving DecidableEq, Repr

/-- The reason in words. -/
def UsageError.message : UsageError → String
  | helpRequested => "help was asked for"
  | nothingGiven => "a command is required"
  | missingCommand => "a command has to follow the options"
  | unknownCommand => "there is no such command"
  | unknownArgument => "an argument is not expected here"
  | missingValue => "an option lacks its value"
  | wrongValue => "the value of an option is not valid"
  | unwantedValue => "an option takes no value"
  | conflict => "an option is given twice or excludes another one"
  | missingOption => "a required option is missing"

/-- What a value has to be. -/
inductive ValueKind where
  | text
  /-- A text that is not empty. -/
  | path
  /-- A number between two bounds, perhaps with a sign. -/
  | number (least greatest : Int)
  /-- A number without a minus that fits in an unsigned word. -/
  | size
  deriving DecidableEq, Repr

/-- The value of an option. -/
inductive OptionValue where
  /-- The option is there and takes no value. -/
  | present
  | text (s : String)
  | number (n : Int)
  deriving DecidableEq, Repr

/-- The value that an argument holds. -/
def ValueKind.read (kind : ValueKind) (arg : String) : Except UsageError OptionValue :=
  match kind with
  | text => .ok (.text arg)
  | path => if arg.isEmpty then .error .missingValue else .ok (.text arg)
  | number least greatest =>
    match Text.signed? arg.toList with
    | some n => if least ≤ n && n ≤ greatest then .ok (.number n) else .error .wrongValue
    | none => .error .wrongValue
  | size =>
    match Text.unsigned? arg.toList with
    | some n => if n ≤ Json.greatestUnsigned then .ok (.number n) else .error .wrongValue
    | none => .error .wrongValue

/-- An option. -/
structure OptionSpec where
  name : String
  /-- What its value has to be, if it takes one. -/
  value : Option ValueKind := some .text
  /-- Whether the argument behind it is its value also when that begins with a hyphen. -/
  takesHyphens : Bool := false
  deriving DecidableEq, Repr

/-- The options of a level and the names of its commands. -/
structure Level where
  options : List OptionSpec
  commands : List String := []

/-- Options with their values. -/
abbrev OptionValues := List (String × OptionValue)

namespace OptionValues

/-- The text given for an option. -/
def text? (values : OptionValues) (name : String) : Option String :=
  match values.lookup name with
  | some (.text s) => some s
  | _ => none

/-- The number given for an option. -/
def number? (values : OptionValues) (name : String) : Option Int :=
  match values.lookup name with
  | some (.number n) => some n
  | _ => none

/-- Whether an option is given. -/
def has (values : OptionValues) (name : String) : Bool := (values.lookup name).isSome

/-- The text of an option that has to be given. -/
def text (values : OptionValues) (name : String) : Except UsageError String :=
  match values.text? name with
  | some s => .ok s
  | none => .error .missingOption

/-- The options with one more value, for an option that has none yet. -/
def add (values : OptionValues) (name : String) (value : OptionValue) : Except UsageError OptionValues :=
  if values.has name then .error .conflict else .ok (values ++ [(name, value)])

/-- The options with a value in the form of an argument for one of them. -/
def addArgument (values : OptionValues) (name : String) (kind : ValueKind) (arg : String) :
    Except UsageError OptionValues := do
  if values.has name then .error .conflict
  let value ← kind.read arg
  .ok (values ++ [(name, value)])

end OptionValues

/-- An option whose value has not been looked at, or has not come yet. -/
structure PendingOption where
  spec : OptionSpec
  kind : ValueKind
  arg : Option String := none

/-- What has been read of a level. -/
structure Given where
  values : OptionValues := []
  pending : Option PendingOption := none

namespace Given

/-- The option whose value has not come yet. -/
def waiting? (g : Given) : Option PendingOption := g.pending.filter (·.arg.isNone)

/-- Whether the next argument is a value, whatever it looks like. -/
def takesAnything (g : Given) : Bool := g.waiting?.any (·.spec.takesHyphens)

/-- The argument as the value that has not come yet. -/
def fill (g : Given) (arg : String) : Given :=
  { g with pending := g.pending.map fun p => { p with arg := some arg } }

/-- All values, each of which has been looked at. -/
def settle (g : Given) : Except UsageError OptionValues :=
  match g.pending with
  | none => .ok g.values
  | some p =>
    match p.arg with
    | some arg => g.values.addArgument p.spec.name p.kind arg
    | none => .error .missingValue

end Given

/-- What an argument looks like. -/
inductive ArgumentForm where
  | long (name : String) (value : Option String)
  | short (letter : Char)
  | plain
  deriving DecidableEq, Repr

/-- The form of an argument. A single hyphen is a plain argument. -/
def ArgumentForm.of (arg : String) : ArgumentForm :=
  match arg.toList with
  | '-' :: '-' :: cs =>
    let name := String.ofList (cs.takeWhile (· != '='))
    match cs.dropWhile (· != '=') with
    | [] => long name none
    | _ :: value => long name (some (String.ofList value))
  | '-' :: c :: _ => short c
  | _ => plain

/-- The argument that ends the options of a level. -/
def endOfOptions : String := "--"

/-- The name of the option, and of the command, that asks for help. -/
def helpName : String := "help"

namespace Level

/-- Why a plain argument is refused. -/
def unexpected (l : Level) : UsageError := if l.commands.isEmpty then .unknownArgument else .unknownCommand

/-- Why an argument is refused behind the end of the options. -/
def unexpectedAtEnd (l : Level) (arg : String) : UsageError :=
  if l.commands.contains arg then .unknownArgument else l.unexpected

/-- One option in its long form. -/
def takeLong (l : Level) (g : Given) (name : String) (arg : Option String) : Except UsageError Given :=
  if name = helpName then
    match arg with
    | some _ => .error .unwantedValue
    | none => do
      let _ ← g.settle
      .error .helpRequested
  else match l.options.find? (·.name = name) with
    | none => .error .unknownArgument
    | some spec =>
      match spec.value, arg with
      | none, some _ => .error .unwantedValue
      | none, none => do
        let values ← g.settle
        let values ← values.add name .present
        .ok ⟨values, none⟩
      | some kind, none => do
        let values ← g.settle
        .ok ⟨values, some ⟨spec, kind, none⟩⟩
      | some kind, some arg => do
        let values ← g.settle
        let values ← values.addArgument name kind arg
        .ok ⟨values, none⟩

/-- One argument that is no command. -/
def take (l : Level) (g : Given) (arg : String) : Except UsageError Given :=
  if g.takesAnything then .ok (g.fill arg)
  else match ArgumentForm.of arg with
    | .long name value => l.takeLong g name value
    | .short letter => do
      if letter != 'h' then .error .unknownArgument
      let _ ← g.settle
      .error .helpRequested
    | .plain => if g.waiting?.isSome then .ok (g.fill arg) else .error l.unexpected

/-- The options up to a command, and the command with the arguments behind it; these are empty where the
arguments end without one. -/
def scan (l : Level) (g : Given) : List String → Except UsageError (Given × List String)
  | [] => .ok (g, [])
  | arg :: rest =>
    if g.waiting?.isNone && l.commands.contains arg then .ok (g, arg :: rest)
    else if arg = endOfOptions && !g.takesAnything then
      match rest with
      | [] => .ok (g, [])
      | next :: _ => .error (l.unexpectedAtEnd next)
    else do
      let g ← l.take g arg
      scan l g rest

end Level

end SnapshotLedger.CommandLine
