import SnapshotLedger.Text.Search

/-!
# What can be wrong with a document

A fault names its cause and the place where reading stopped. While reading, the place is kept as the number of
bytes not yet consumed; `Fault.locate` turns it into a line and a column of the whole document. Columns count
bytes.
-/

namespace SnapshotLedger.Json

/-- The causes for which a text is no document. -/
inductive Cause where
  | endInList
  | endInObject
  | endInString
  | endInValue
  | expectedColon
  | expectedListCommaOrEnd
  | expectedObjectCommaOrEnd
  | expectedIdent
  | expectedValue
  | invalidEscape
  | invalidNumber
  | numberOutOfRange
  | controlCharacter
  | keyNotString
  | loneSurrogate
  | trailingComma
  | trailingCharacters
  | endOfHexEscape
  | tooDeep
  deriving DecidableEq, Repr

namespace Cause

/-- The cause in words. -/
def text : Cause → String
  | endInList => "EOF while parsing a list"
  | endInObject => "EOF while parsing an object"
  | endInString => "EOF while parsing a string"
  | endInValue => "EOF while parsing a value"
  | expectedColon => "expected `:`"
  | expectedListCommaOrEnd => "expected `,` or `]`"
  | expectedObjectCommaOrEnd => "expected `,` or `\x7d`"
  | expectedIdent => "expected ident"
  | expectedValue => "expected value"
  | invalidEscape => "invalid escape"
  | invalidNumber => "invalid number"
  | numberOutOfRange => "number out of range"
  | controlCharacter => "control character (\\u0000-\\u001F) found while parsing a string"
  | keyNotString => "key must be a string"
  | loneSurrogate => "lone leading surrogate in hex escape"
  | trailingComma => "trailing comma"
  | trailingCharacters => "trailing characters"
  | endOfHexEscape => "unexpected end of hex escape"
  | tooDeep => "recursion limit exceeded"

/-- Whether the text ended too early, so that more text could have made it a document. -/
def isEarlyEnd : Cause → Bool
  | endInList | endInObject | endInString | endInValue => true
  | _ => false

end Cause

/-- A cause and the bytes that were not consumed. -/
structure Fault where
  cause : Cause
  unread : Nat
  deriving DecidableEq, Repr

namespace Fault

/-- A fault behind the last character consumed. -/
def here (cause : Cause) (rest : List Char) : Fault := ⟨cause, Text.utf8Length rest⟩

/-- A fault some bytes further on. -/
def past (cause : Cause) (rest : List Char) (bytes : Nat) : Fault := ⟨cause, Text.utf8Length rest - bytes⟩

/-- A fault on the next character. -/
def next (cause : Cause) (rest : List Char) : Fault := past cause rest 1

end Fault

/-- Why a text is no document, and where. -/
structure ReadError where
  cause : Cause
  line : Nat
  column : Nat
  deriving DecidableEq, Repr

namespace ReadError

/-- The error in words. -/
def message (e : ReadError) : String := s!"{e.cause.text} at line {e.line} column {e.column}"

end ReadError

/-- The line and the column reached after a number of bytes. -/
def advance (line column : Nat) : (bytes : Nat) → List Char → Nat × Nat
  | _, [] => (line, column)
  | bytes, c :: r =>
    if bytes < c.utf8Size then (line, column + bytes)
    else if c = '\n' then advance (line + 1) 0 (bytes - c.utf8Size) r
    else advance line (column + c.utf8Size) (bytes - c.utf8Size) r

/-- The fault as an error of the whole document. -/
def Fault.locate (f : Fault) (document : List Char) : ReadError :=
  let place := advance 1 0 (Text.utf8Length document - f.unread) document
  ⟨f.cause, place.1, place.2⟩

end SnapshotLedger.Json

/-! ## Chains of causes

An error that is reported to a user is explained by a chain: what was being done, outermost first, down to what
went wrong. -/

namespace SnapshotLedger

/-- One explanation in a chain. -/
inductive Link where
  | text (s : String)
  /-- A document that cannot be read. -/
  | unreadable (error : Json.ReadError)
  deriving DecidableEq, Repr

/-- The explanation in words. -/
def Link.message : Link → String
  | text s => s
  | unreadable error => error.message

/-- The explanations of an error, outermost first. -/
abbrev Chain := List Link

/-- The whole chain in one line. -/
def Chain.message (chain : Chain) : String := ": ".intercalate (chain.map Link.message)

end SnapshotLedger
