import SnapshotLedger.Json.Basic
import SnapshotLedger.Json.Fault
import SnapshotLedger.Text.Ascii

/-!
# Reading numbers

A numeral without fraction and exponent that fits in a word is an integer; every other one is a binary number,
and one too large for that is refused. Of long numerals only the leading digits count, as many as fit in an
unsigned word; the digits of the fraction are tried again one by one where the digits before the point were cut
off. Minus zero is a binary number.
-/

namespace SnapshotLedger.Json

/-- A numeral in progress: `significand * 10 ^ exponent`, and what follows it. -/
structure Numeral where
  significand : Nat
  exponent : Int
  rest : List Char

/-- Whether another digit fits into the significand. -/
def fitsDigit (significand : Nat) (d : Char) : Bool := 10 * significand + Text.digitValue d ≤ greatestUnsigned

/-- The digits before the point, after the first one. -/
def wholeDigits (significand : Nat) (dropped : Nat) : List Char → Numeral
  | [] => ⟨significand, dropped, []⟩
  | c :: r =>
    if !c.isDigit then ⟨significand, dropped, c :: r⟩
    else if dropped = 0 && fitsDigit significand c then wholeDigits (10 * significand + Text.digitValue c) 0 r
    else wholeDigits significand (dropped + 1) r

/-- The digits behind the point, until one does not fit; the others are passed over. -/
def fractionDigits (significand : Nat) (exponent : Int) (full : Bool) : List Char → Numeral
  | [] => ⟨significand, exponent, []⟩
  | c :: r =>
    if !c.isDigit then ⟨significand, exponent, c :: r⟩
    else if !full && fitsDigit significand c then
      fractionDigits (10 * significand + Text.digitValue c) (exponent - 1) false r
    else fractionDigits significand exponent true r

/-- The greatest power of ten that is counted. -/
def greatestPower : Nat := 2147483647

/-- The digits of an exponent after the first one: its value and what follows, or what follows the digit that
made it too large. -/
def powerDigits (power : Nat) : List Char → Except (List Char) (Nat × List Char)
  | [] => .ok (power, [])
  | c :: r =>
    if !c.isDigit then .ok (power, c :: r)
    else if 10 * power + Text.digitValue c ≤ greatestPower then powerDigits (10 * power + Text.digitValue c) r
    else .error r

/-- A binary number from its parts. -/
def scaled (negative : Bool) (significand : Nat) (exponent : Int) (rest : List Char) :
    Except Fault (Json × List Char) :=
  match Binary64.ofScientific? negative significand exponent with
  | some x => .ok (float x, rest)
  | none => .error (.here .numberOutOfRange rest)

/-- The exponent of a numeral, after its letter. -/
def readPower (negative : Bool) (significand : Nat) (exponent : Int) (s : List Char) :
    Except Fault (Json × List Char) :=
  let (down, s) := match s with
    | '+' :: r => (false, r)
    | '-' :: r => (true, r)
    | _ => (false, s)
  match s with
  | [] => .error (.here .endInValue [])
  | c :: r =>
    if !c.isDigit then .error (.past .invalidNumber (c :: r) 1)
    else match powerDigits (Text.digitValue c) r with
      | .ok (power, rest) => scaled negative significand (if down then exponent - power else exponent + power) rest
      | .error rest =>
        if significand = 0 || down then .ok (float (.zero negative), rest.dropWhile Char.isDigit)
        else .error (.here .numberOutOfRange rest)

/-- The fraction of a numeral, after its point. -/
def readFraction (negative : Bool) (significand : Nat) (exponent : Int) (s : List Char) :
    Except Fault (Json × List Char) :=
  match s with
  | [] => .error (.next .endInValue [])
  | c :: _ =>
    if !c.isDigit then .error (.next .invalidNumber s)
    else
      let n := fractionDigits significand exponent false s
      match n.rest with
      | 'e' :: r | 'E' :: r => readPower negative n.significand n.exponent r
      | rest => scaled negative n.significand n.exponent rest

/-- What the digits before the point mean, by what follows them. -/
def readTail (negative : Bool) (n : Numeral) : Except Fault (Json × List Char) :=
  match n.rest with
  | '.' :: r => readFraction negative n.significand n.exponent r
  | 'e' :: r | 'E' :: r => readPower negative n.significand n.exponent r
  | rest =>
    if n.exponent != 0 then scaled negative n.significand n.exponent rest
    else if !negative then .ok (integer n.significand, rest)
    else if 0 < n.significand && -(n.significand : Int) ≥ leastInteger then .ok (integer (-n.significand), rest)
    else .ok (float (.ofRatio true n.significand 1), rest)

/-- A numeral after its sign. -/
def readNumeral (negative : Bool) (s : List Char) : Except Fault (Json × List Char) :=
  match s with
  | [] => .error (.here .endInValue [])
  | '0' :: r =>
    match r with
    | c :: _ => if c.isDigit then .error (.next .invalidNumber r) else readTail negative ⟨0, 0, r⟩
    | [] => readTail negative ⟨0, 0, r⟩
  | c :: r =>
    if !c.isDigit then .error (.past .invalidNumber (c :: r) 1)
    else readTail negative (wholeDigits (Text.digitValue c) 0 r)

end SnapshotLedger.Json
