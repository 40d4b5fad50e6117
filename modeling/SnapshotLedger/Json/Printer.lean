import SnapshotLedger.Json.Basic
import SnapshotLedger.Decimal.Layout

/-!
# JSON as text

Two forms of a document. `compact` has no blanks and is what is stored; `pretty` has a line for every item and
every member, two blanks for each level, and is what commands print. In strings only the quote, the backslash
and the controls are escaped.
-/

namespace SnapshotLedger.Json

/-- Four hexadecimal digits of a code point below `0x100`. -/
def controlDigits (n : Nat) : List Char := ['0', '0', (n / 16).digitChar, (n % 16).digitChar]

/-- How one character of a string is written. -/
def escapedChar (c : Char) : List Char :=
  if c = '\"' then ['\\', '\"']
  else if c = '\\' then ['\\', '\\']
  else if c = '\x08' then ['\\', 'b']
  else if c = '\t' then ['\\', 't']
  else if c = '\n' then ['\\', 'n']
  else if c = '\x0C' then ['\\', 'f']
  else if c = '\r' then ['\\', 'r']
  else if c.toNat < 0x20 then '\\' :: 'u' :: controlDigits c.toNat
  else [c]

/-- A string between its quotes. -/
def stringText (s : String) : List Char := '\"' :: s.toList.flatMap escapedChar ++ ['\"']

/-- The digits of an integer, after its sign. -/
def integerText (n : Int) : List Char :=
  if n < 0 then '-' :: Nat.toDigits 10 n.natAbs else Nat.toDigits 10 n.natAbs

mutual

/-- The text without blanks. -/
def compactChars : Json → List Char
  | null => ['n', 'u', 'l', 'l']
  | bool true => ['t', 'r', 'u', 'e']
  | bool false => ['f', 'a', 'l', 's', 'e']
  | integer n => integerText n
  | float x => NumberLayout.exchange.text x
  | string s => stringText s
  | array [] => ['[', ']']
  | array (v :: vs) => '[' :: compactChars v ++ compactItems vs
  | object [] => ['{', '}']
  | object (e :: es) => '{' :: compactMember e ++ compactMembers es

/-- The items after the first one, and the end of the array. -/
def compactItems : List Json → List Char
  | [] => [']']
  | v :: vs => ',' :: compactChars v ++ compactItems vs

/-- One member. -/
def compactMember : String × Json → List Char
  | (k, v) => stringText k ++ ':' :: compactChars v

/-- The members after the first one, and the end of the object. -/
def compactMembers : List (String × Json) → List Char
  | [] => ['}']
  | e :: es => ',' :: compactMember e ++ compactMembers es

end

/-- The text of a document without blanks. -/
def compact (v : Json) : String := String.ofList v.compactChars

/-- The end of a line and the blanks that open the next one, for a number of levels. -/
def newLine (level : Nat) : List Char := '\n' :: List.replicate (2 * level) ' '

mutual

/-- The text with a line for every item and member, from a given level on. -/
def prettyChars (level : Nat) : Json → List Char
  | array (v :: vs) => '[' :: newLine (level + 1) ++ prettyChars (level + 1) v ++ prettyItems level vs
  | object (e :: es) => '{' :: newLine (level + 1) ++ prettyMember (level + 1) e ++ prettyMembers level es
  | v => compactChars v

/-- The items after the first one, and the end of the array. -/
def prettyItems (level : Nat) : List Json → List Char
  | [] => newLine level ++ [']']
  | v :: vs => ',' :: newLine (level + 1) ++ prettyChars (level + 1) v ++ prettyItems level vs

/-- One member. -/
def prettyMember (level : Nat) : String × Json → List Char
  | (k, v) => stringText k ++ ':' :: ' ' :: prettyChars level v

/-- The members after the first one, and the end of the object. -/
def prettyMembers (level : Nat) : List (String × Json) → List Char
  | [] => newLine level ++ ['}']
  | e :: es => ',' :: newLine (level + 1) ++ prettyMember (level + 1) e ++ prettyMembers level es

end

/-- The text of a document with a line for every item and member. -/
def pretty (v : Json) : String := String.ofList (v.prettyChars 0)

end SnapshotLedger.Json
