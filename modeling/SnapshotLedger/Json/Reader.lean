import SnapshotLedger.Json.Numeral

/-!
# Reading documents

`read` accepts the documents of the exchange format whose arrays and objects are nested at most `deepest`
levels, with blanks between their parts and nothing behind them. Everything else is answered by the first fault
met from the left.

Strings hold no controls, and escapes of surrogates come in pairs.
-/

namespace SnapshotLedger.Json

/-- The deepest nesting of arrays and objects that is accepted. -/
def deepest : Nat := 127

/-- Whether a character may stand between the parts of a document. -/
def isSpace (c : Char) : Bool := c = ' ' || c = '\n' || c = '\t' || c = '\r'

/-- The text without the blanks that open it. -/
def skipSpace (s : List Char) : List Char := s.dropWhile isSpace

/-- The value of four hexadecimal digits. -/
def hexWord? (a b c d : Char) : Option Nat := do
  let a ← Text.hexValue? a
  let b ← Text.hexValue? b
  let c ← Text.hexValue? c
  let d ← Text.hexValue? d
  return ((a * 16 + b) * 16 + c) * 16 + d

/-- The four hexadecimal digits of an escape. -/
def hexEscape (s : List Char) : Except Fault (Nat × List Char) :=
  match s with
  | a :: b :: c :: d :: r =>
    match hexWord? a b c d with
    | some n => .ok (n, r)
    | none => .error (.past .invalidEscape s 4)
  | _ => if Text.utf8Length s < 4 then .error (.here .endInString []) else .error (.past .invalidEscape s 4)

/-- The second half of an escaped pair of surrogates, from its backslash on. -/
def secondSurrogate (first : Nat) (s : List Char) : Except Fault (Char × List Char) :=
  match s with
  | [] => .error (.here .endInString [])
  | '\\' :: r =>
    match r with
    | [] => .error (.here .endInString [])
    | 'u' :: r' => do
      let (second, rest) ← hexEscape r'
      if second < 0xDC00 || 0xDFFF < second then .error (.here .loneSurrogate rest)
      else .ok (Char.ofNat (0x10000 + (first - 0xD800) * 0x400 + (second - 0xDC00)), rest)
    | _ => .error (.past .endOfHexEscape r 1)
  | _ => .error (.past .endOfHexEscape s 1)

/-- An escape, after its backslash. -/
def escape (s : List Char) : Except Fault (Char × List Char) :=
  match s with
  | [] => .error (.here .endInString [])
  | '\"' :: r => .ok ('\"', r)
  | '\\' :: r => .ok ('\\', r)
  | '/' :: r => .ok ('/', r)
  | 'b' :: r => .ok ('\x08', r)
  | 'f' :: r => .ok ('\x0C', r)
  | 'n' :: r => .ok ('\n', r)
  | 'r' :: r => .ok ('\r', r)
  | 't' :: r => .ok ('\t', r)
  | 'u' :: r => do
    let (n, rest) ← hexEscape r
    if 0xDC00 ≤ n && n ≤ 0xDFFF then .error (.here .loneSurrogate rest)
    else if 0xD800 ≤ n && n ≤ 0xDBFF then secondSurrogate n rest
    else .ok (Char.ofNat n, rest)
  | _ => .error (.past .invalidEscape s 1)

/-- The characters of a string, after its opening quote. -/
def stringChars : (fuel : Nat) → List Char → Except Fault (List Char × List Char)
  | 0, s => .error (.here .endInString s)
  | fuel + 1, s =>
    match s with
    | [] => .error (.here .endInString [])
    | '\"' :: r => .ok ([], r)
    | '\\' :: r => do
      let (c, rest) ← escape r
      let (cs, rest) ← stringChars fuel rest
      .ok (c :: cs, rest)
    | c :: r =>
      if c.toNat < 0x20 then .error (.past .controlCharacter s 1)
      else do
        let (cs, rest) ← stringChars fuel r
        .ok (c :: cs, rest)

/-- A string, after its opening quote. -/
def readString (fuel : Nat) (s : List Char) : Except Fault (String × List Char) := do
  let (cs, rest) ← stringChars fuel s
  .ok (String.ofList cs, rest)

/-- The rest of a word, of which the first letter has been consumed. -/
def readWord (word : List Char) (value : Json) (s : List Char) : Except Fault (Json × List Char) :=
  match word, s with
  | [], _ => .ok (value, s)
  | _ :: _, [] => .error (.here .endInValue [])
  | w :: ws, c :: r => if c = w then readWord ws value r else .error (.past .expectedIdent (c :: r) 1)

/-- A way to read one value. -/
abbrev ValueReader := List Char → Except Fault (Json × List Char)

/-- The items of an array from its first item on. -/
def readItems (item : ValueReader) : (fuel : Nat) → List Char → Except Fault (List Json × List Char)
  | 0, s => .error (.next .endInList s)
  | fuel + 1, s => do
    let (v, s) ← item s
    match skipSpace s with
    | [] => .error (.next .endInList [])
    | ']' :: rest => .ok ([v], rest)
    | ',' :: r =>
      match skipSpace r with
      | [] => .error (.next .endInValue [])
      | ']' :: r' => .error (.next .trailingComma (']' :: r'))
      | s => do
        let (vs, rest) ← readItems item fuel s
        .ok (v :: vs, rest)
    | s => .error (.next .expectedListCommaOrEnd s)

/-- An array, after its opening bracket. -/
def readArray (item : ValueReader) (fuel : Nat) (s : List Char) : Except Fault (Json × List Char) :=
  match skipSpace s with
  | [] => .error (.next .endInList [])
  | ']' :: rest => .ok (array [], rest)
  | s => do
    let (vs, rest) ← readItems item fuel s
    .ok (array vs, rest)

/-- The value of a member, from the colon on. -/
def readMemberValue (item : ValueReader) (s : List Char) : Except Fault (Json × List Char) :=
  match skipSpace s with
  | [] => .error (.next .endInObject [])
  | ':' :: r => item r
  | s => .error (.next .expectedColon s)

/-- The members of an object from the opening quote of its first key on. -/
def readMembers (item : ValueReader) : (fuel : Nat) → List Char → Except Fault (List (String × Json) × List Char)
  | 0, s => .error (.next .endInObject s)
  | fuel + 1, s => do
    let (key, s) ← readString (s.length + 1) (s.drop 1)
    let (v, s) ← readMemberValue item s
    match skipSpace s with
    | [] => .error (.next .endInObject [])
    | '}' :: rest => .ok ([(key, v)], rest)
    | ',' :: r =>
      match skipSpace r with
      | [] => .error (.next .endInValue [])
      | '\"' :: r' => do
        let (ms, rest) ← readMembers item fuel ('\"' :: r')
        .ok ((key, v) :: ms, rest)
      | '}' :: r' => .error (.next .trailingComma ('}' :: r'))
      | s => .error (.next .keyNotString s)
    | s => .error (.next .expectedObjectCommaOrEnd s)

/-- An object, after its opening brace. -/
def readObject (item : ValueReader) (fuel : Nat) (s : List Char) : Except Fault (Json × List Char) :=
  match skipSpace s with
  | [] => .error (.next .endInObject [])
  | '}' :: rest => .ok (object [], rest)
  | '\"' :: r => do
    let (ms, rest) ← readMembers item fuel ('\"' :: r)
    .ok (object (ofMembers ms), rest)
  | s => .error (.next .keyNotString s)

/-- A value whose arrays and objects hold values read by `inner`; without it there may be none. -/
def readValueWith (inner : Option ValueReader) (s : List Char) : Except Fault (Json × List Char) :=
  match skipSpace s with
  | [] => .error (.next .endInValue [])
  | 'n' :: r => readWord ['u', 'l', 'l'] null r
  | 't' :: r => readWord ['r', 'u', 'e'] (bool true) r
  | 'f' :: r => readWord ['a', 'l', 's', 'e'] (bool false) r
  | '-' :: r => readNumeral true r
  | '\"' :: r => do
    let (text, rest) ← readString (r.length + 1) r
    .ok (string text, rest)
  | '[' :: r =>
    match inner with
    | some item => readArray item (r.length + 1) r
    | none => .error (.next .tooDeep ('[' :: r))
  | '{' :: r =>
    match inner with
    | some item => readObject item (r.length + 1) r
    | none => .error (.next .tooDeep ('{' :: r))
  | c :: r => if c.isDigit then readNumeral false (c :: r) else .error (.next .expectedValue (c :: r))

/-- A value in which arrays and objects are nested at most `depth` levels. -/
def readValue : (depth : Nat) → ValueReader
  | 0 => readValueWith none
  | depth + 1 => readValueWith (some (readValue depth))

/-- A whole document. -/
def readChars (s : List Char) : Except Fault Json := do
  let (v, rest) ← readValue deepest s
  match skipSpace rest with
  | [] => .ok v
  | rest => .error (.next .trailingCharacters rest)

/-- The document that a text holds. -/
def read (s : String) : Except ReadError Json :=
  match readChars s.toList with
  | .ok v => .ok v
  | .error f => .error (f.locate s.toList)

end SnapshotLedger.Json
