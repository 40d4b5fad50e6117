import SnapshotLedger.Decimal.Rounding

/-!
# Binary numbers of 64 bits

A number is kept as the word that encodes it: a sign, eleven bits of exponent and fifty-two of fraction.
Everything that is asked of such numbers here (which of them are finite, which one is nearest to a quotient) is
answered in exact integer arithmetic.

Rounding goes to the nearest number and, between two equally near ones, to the one with an even last bit.
-/

namespace SnapshotLedger

/-- A number in the 64-bit binary format. -/
structure Binary64 where
  bits : UInt64
  deriving DecidableEq, Repr, Inhabited

namespace Binary64

/-- The exponent field: zero for the subnormal numbers, `2047` for infinities and for what is no number. -/
def exponentField (x : Binary64) : Nat := x.bits.toNat / twoTo 52 % 2048

/-- The fraction field. -/
def fractionField (x : Binary64) : Nat := x.bits.toNat % twoTo 52

/-- Whether the sign bit is set. -/
def isNegative (x : Binary64) : Bool := twoTo 63 ≤ x.bits.toNat

/-- Neither an infinity nor a NaN. -/
def isFinite (x : Binary64) : Bool := x.exponentField != 2047

/-- What no number is. -/
def isNaN (x : Binary64) : Bool := x.exponentField == 2047 && x.fractionField != 0

/-- Zero, of either sign. -/
def isZero (x : Binary64) : Bool := x.exponentField == 0 && x.fractionField == 0

/-- The integer `m` in the absolute value `m * 2 ^ q` of a finite number. -/
def significand (x : Binary64) : Nat :=
  if x.exponentField = 0 then x.fractionField else twoTo 52 + x.fractionField

/-- The power `q` in the absolute value `m * 2 ^ q` of a finite number. -/
def exponent (x : Binary64) : Int :=
  if x.exponentField = 0 then -1074 else (x.exponentField : Int) - 1075

/-- Equality of numbers: the two zeros are equal, and a NaN equals nothing. -/
def sameNumber (x y : Binary64) : Bool :=
  !x.isNaN && !y.isNaN && (x == y || (x.isZero && y.isZero))

/-- The number with the given sign and fields. -/
def ofFields (negative : Bool) (exponentField fractionField : Nat) : Binary64 :=
  ⟨UInt64.ofNat ((if negative then twoTo 63 else 0) + exponentField * twoTo 52 + fractionField)⟩

/-- Zero with the given sign. -/
def zero (negative : Bool) : Binary64 := ofFields negative 0 0

/-- The infinity with the given sign. -/
def infinity (negative : Bool) : Binary64 := ofFields negative 2047 0

/-- The quiet NaN without a payload. -/
def nan : Binary64 := ofFields false 2047 (twoTo 51)

/-- The number `m * 2 ^ q` for a significand of at most fifty-three bits, or the infinity if it is too large. -/
def pack (negative : Bool) (m : Nat) (q : Int) : Binary64 :=
  if m < twoTo 52 then ofFields negative 0 m
  else if 971 < q then infinity negative
  else ofFields negative (q + 1075).toNat (m - twoTo 52)

/-- The power of two that the last bit of the nearest number to `num / den` stands for. -/
def lastPlace (num den : Nat) : Int :=
  let q : Int := (num.log2 : Int) - den.log2 - 52
  let q := if num * twoTo (-q).toNat < twoTo 52 * den * twoTo q.toNat then q - 1 else q
  max q (-1074)

/-- The nearest number to `num / den`, with the given sign. -/
def ofRatio (negative : Bool) (num den : Nat) : Binary64 :=
  if num = 0 then zero negative
  else
    let q := lastPlace num den
    let m := roundQuotient .even (num * twoTo (-q).toNat) (den * twoTo q.toNat)
    if m = twoTo 53 then pack negative (twoTo 52) (q + 1) else pack negative m q

/-- The numerator of the absolute value. -/
def numerator (x : Binary64) : Nat := x.significand * twoTo x.exponent.toNat

/-- The denominator of the absolute value. -/
def denominator (x : Binary64) : Nat := twoTo (-x.exponent).toNat

/-- The nearest number to an integer. -/
def ofInt (n : Int) : Binary64 := ofRatio (n < 0) n.natAbs 1

/-- The product of the absolute values, rounded. -/
def mulAbs (x y : Binary64) : Binary64 := ofRatio false (x.numerator * y.numerator) (x.denominator * y.denominator)

/-- The quotient of the absolute values, rounded. -/
def divAbs (x y : Binary64) : Binary64 := ofRatio false (x.numerator * y.denominator) (x.denominator * y.numerator)

/-- The number with the sign set or cleared. -/
def withSign (negative : Bool) (x : Binary64) : Binary64 := ofFields negative x.exponentField x.fractionField

/-- The power of ten, rounded. It is exact up to the exponent 22. -/
def powerOfTen (k : Nat) : Binary64 := ofRatio false (tenTo k) 1

/-- The number that a decimal with the given significand and power of ten is read as; none when it is too large.
The significand is rounded first and then multiplied or divided by a rounded power of ten, below `10 ^ -308` in
two steps, so the result may miss the nearest number by its last bit. Two steps leave nothing of a significand
that fits in a word. -/
def ofScientific? (negative : Bool) (significand : Nat) (exponent : Int) : Option Binary64 :=
  let m := ofRatio false significand 1
  if m.isZero then some (zero negative)
  else if 0 ≤ exponent then
    if 308 < exponent then none
    else
      let x := mulAbs m (powerOfTen exponent.toNat)
      if x.isFinite then some (x.withSign negative) else none
  else
    let n := (-exponent).toNat
    if n ≤ 308 then some ((divAbs m (powerOfTen n)).withSign negative)
    else if n ≤ 616 then some ((divAbs (divAbs m (powerOfTen 308)) (powerOfTen (n - 308))).withSign negative)
    else some (zero negative)

end Binary64

end SnapshotLedger
