import SnapshotLedger.Rendered.Value
import SnapshotLedger.Text.Quoted
import SnapshotLedger.Json.Printer

/-!
# Rendered values for readers

Texts and keys are quoted, numbers are in the display layout, and an object is shown as its kind with its entries in
parentheses; the names of its template fields follow as a last entry.
-/

namespace SnapshotLedger.Rendered

/-- Texts with a comma and a blank between them. -/
def separated (parts : List (List Char)) : List Char := [',', ' '].intercalate parts

/-- The quoted form of a text, as characters. -/
def quotedChars (s : String) : List Char := (Text.quoted s).toList

/-- The last entry of a shown object. -/
def templateFieldsEntry (names : List String) : List Char :=
  quotedChars "template_fields" ++ [':', ' ', '['] ++ separated (names.map quotedChars) ++ [']']

mutual

/-- The value as characters. -/
def displayChars : Rendered → List Char
  | null => ['n', 'u', 'l', 'l']
  | bool true => ['t', 'r', 'u', 'e']
  | bool false => ['f', 'a', 'l', 's', 'e']
  | integer n => Json.integerText n
  | float x => NumberLayout.display.text x
  | text s => quotedChars s
  | sequence vs => '[' :: separated (displayItems vs) ++ [']']
  | mapping es => '{' :: separated (displayEntries es) ++ ['}']
  | object kind names es =>
    kind.toList ++ ['(', '{'] ++ separated (displayEntries es ++ [templateFieldsEntry names]) ++ ['}', ')']

/-- The items as characters. -/
def displayItems : List Rendered → List (List Char)
  | [] => []
  | v :: vs => displayChars v :: displayItems vs

/-- The entries as characters. -/
def displayEntries : List (String × Rendered) → List (List Char)
  | [] => []
  | (k, v) :: es => (quotedChars k ++ ':' :: ' ' :: displayChars v) :: displayEntries es

end

/-- The value for readers. -/
def display (v : Rendered) : String := String.ofList v.displayChars

end SnapshotLedger.Rendered
