/-!
# Letters and numbers of ASCII

Names of fields and of variables are compared without regard to case, but only the letters of ASCII have a case
here: `É` and `é` stay two different letters. Numbers are spelled with the digits of ASCII.
-/

namespace SnapshotLedger.Text

/-- The text with the letters of ASCII in lower case. -/
def lower (s : String) : String := String.ofList (s.toList.map Char.toLower)

/-- The text with the letters of ASCII in upper case. -/
def upper (s : String) : String := String.ofList (s.toList.map Char.toUpper)

/-- The value of a decimal digit. -/
def digitValue (c : Char) : Nat := c.toNat - '0'.toNat

/-- The value of a hexadecimal digit. -/
def hexValue? (c : Char) : Option Nat :=
  if c.isDigit then some (c.toNat - '0'.toNat)
  else if 'a' ≤ c && c ≤ 'f' then some (c.toNat - 'a'.toNat + 10)
  else if 'A' ≤ c && c ≤ 'F' then some (c.toNat - 'A'.toNat + 10)
  else none

/-- The number that a row of decimal digits spells, the first digit being the highest. -/
def digitsValue (ds : List Char) : Nat := ds.foldl (fun n d => 10 * n + digitValue d) 0

/-- The decimal digits of a number, at least `width` of them, zeros in front. -/
def padded (width n : Nat) : List Char :=
  let ds := Nat.toDigits 10 n
  List.replicate (width - ds.length) '0' ++ ds

/-- A number spelled with an optional plus sign and at least one digit, and with nothing else around it. -/
def unsigned? (s : List Char) : Option Nat :=
  let ds := match s with
    | '+' :: r => r
    | _ => s
  if ds.isEmpty || !ds.all Char.isDigit then none else some (digitsValue ds)

/-- A number spelled with an optional sign and at least one digit, and with nothing else around it. -/
def signed? (s : List Char) : Option Int :=
  match s with
  | '-' :: r => if r.isEmpty || !r.all Char.isDigit then none else some (-(digitsValue r : Int))
  | _ => (unsigned? s).map Int.ofNat

end SnapshotLedger.Text
