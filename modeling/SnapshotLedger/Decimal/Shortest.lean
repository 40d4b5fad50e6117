import SnapshotLedger.Decimal.Binary64

/-!
# The shortest decimal

Of the decimals that are read as a given binary number, the one with the fewest digits is written; of several
with equally few digits, the one nearest to the number; of two equally near ones, the one that is asked for. A
decimal is read as a number when it lies between the number and the middle of the way to its neighbours, the
middle itself counting when the last bit of the number is even.
-/

namespace SnapshotLedger

/-- The number `significand * 10 ^ exponent`. -/
structure Decimal where
  significand : Nat
  exponent : Int
  deriving DecidableEq, Repr, Inhabited

namespace Decimal

/-- Whether `significand * 10 ^ exponent` is at most `m * 2 ^ q`. -/
def leBinary (d : Decimal) (m : Nat) (q : Int) : Bool :=
  d.significand * tenTo d.exponent.toNat * twoTo (-q).toNat ≤ m * twoTo q.toNat * tenTo (-d.exponent).toNat

/-- Whether `m * 2 ^ q` is at most `significand * 10 ^ exponent`. -/
def binaryLe (m : Nat) (q : Int) (d : Decimal) : Bool :=
  m * twoTo q.toNat * tenTo (-d.exponent).toNat ≤ d.significand * tenTo d.exponent.toNat * twoTo (-q).toNat

/-- Whether a decimal is read as the absolute value of a finite number. Quarters of the last bit are counted,
because below a power of two the neighbour is half as far away. -/
def readsAs (d : Decimal) (x : Binary64) : Bool :=
  let m := x.significand
  let q := x.exponent - 2
  let low := if x.fractionField = 0 && 1 < x.exponentField then 4 * m - 1 else 4 * m - 2
  let high := 4 * m + 2
  if m % 2 = 0 then binaryLe low q d && d.leBinary high q
  else !d.leBinary low q && !binaryLe high q d

/-- The position of the highest decimal digit of a number, counted from zero. -/
def topDigit (n : Nat) : Nat :=
  let k := n.log2 * 30103 / 100000
  if n < tenTo k then k - 1 else if tenTo (k + 1) ≤ n then k + 1 else k

/-- The power of ten that the first digit of a finite number other than zero stands for. -/
def leadingPower (x : Binary64) : Int := (topDigit (x.numerator * tenTo 400 / x.denominator) : Int) - 400

/-- Of the two neighbours of a number among the multiples of `10 ^ exponent`, the one that is read as it; the
nearer one if both are. -/
def neighbour? (tie : Tie) (x : Binary64) (exponent : Int) : Option Decimal :=
  let num := x.numerator * tenTo (-exponent).toNat
  let den := x.denominator * tenTo exponent.toNat
  let low : Decimal := ⟨num / den, exponent⟩
  let high : Decimal := ⟨num / den + 1, exponent⟩
  match low.readsAs x, high.readsAs x with
  | true, true => some ⟨roundQuotient tie num den, exponent⟩
  | true, false => some low
  | false, true => some high
  | false, false => none

/-- The shortest decimal of a finite number other than zero. Seventeen digits always suffice. -/
def shortest (tie : Tie) (x : Binary64) : Decimal :=
  let top := leadingPower x
  ((List.range 17).findSome? fun (k : Nat) => neighbour? tie x (top - k)).getD ⟨0, 0⟩

/-- The digits of a decimal without the zeros that end them. -/
def digits (d : Decimal) : List Char :=
  match ((Nat.toDigits 10 d.significand).reverse.dropWhile (· = '0')).reverse with
  | [] => ['0']
  | ds => ds

/-- The power of ten that the first digit stands for. -/
def firstPower (d : Decimal) : Int := d.exponent + ((Nat.toDigits 10 d.significand).length : Int) - 1

end Decimal

end SnapshotLedger
