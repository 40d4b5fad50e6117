import SnapshotLedger.Decimal.Shortest

/-!
# How numbers are laid out

The digits of a number are those of its shortest decimal, laid out in one of two ways. `NumberLayout.exchange`
is the layout of stored and printed documents: whole numbers keep a fraction, and numbers far from one get an
exponent. `NumberLayout.display` is the layout for readers: never an exponent, and no fraction that says
nothing. The two also differ where two shortest decimals are equally near.
-/

namespace SnapshotLedger

/-- The choices that a layout makes. -/
structure NumberLayout where
  /-- Whether a number whose first digit stands for this power of ten is written without an exponent. -/
  positional : Int → Bool
  /-- What follows a whole number that is written without an exponent. -/
  wholeEnding : List Char
  /-- Which of two equally near decimals is written. -/
  tie : Tie

namespace NumberLayout

/-- Documents: exponents outside `-5 … 15`, `.0` behind whole numbers, and an even last digit in a tie. -/
def exchange : NumberLayout := ⟨fun e => -5 ≤ e && e ≤ 15, ['.', '0'], .even⟩

/-- Readers: no exponents, nothing behind whole numbers, and the upper decimal in a tie. -/
def display : NumberLayout := ⟨fun _ => true, [], .upper⟩

/-- Digits written without an exponent, where the first one stands for `10 ^ e`. -/
def fixedDigits (layout : NumberLayout) (ds : List Char) (e : Int) : List Char :=
  if e < 0 then ['0', '.'] ++ List.replicate ((-e).toNat - 1) '0' ++ ds
  else
    let whole := e.toNat + 1
    let front := ds.take whole ++ List.replicate (whole - ds.length) '0'
    match ds.drop whole with
    | [] => front ++ layout.wholeEnding
    | fraction => front ++ '.' :: fraction

/-- Digits written with an exponent: one digit before the point, and the sign of the exponent always. -/
def scientificDigits (ds : List Char) (e : Int) : List Char :=
  let fraction := match ds.drop 1 with
    | [] => []
    | r => '.' :: r
  let sign := if e < 0 then '-' else '+'
  ds.take 1 ++ fraction ++ 'e' :: sign :: Nat.toDigits 10 e.natAbs

/-- The digits of a finite number, laid out. -/
def unsigned (layout : NumberLayout) (x : Binary64) : List Char :=
  let d := if x.isZero then ⟨0, 0⟩ else Decimal.shortest layout.tie x
  if layout.positional d.firstPower then layout.fixedDigits d.digits d.firstPower
  else scientificDigits d.digits d.firstPower

/-- The text of a number. -/
def text (layout : NumberLayout) (x : Binary64) : List Char :=
  if x.isNaN then ['N', 'a', 'N']
  else
    let absolute := if x.isFinite then layout.unsigned x else ['i', 'n', 'f']
    if x.isNegative then '-' :: absolute else absolute

end NumberLayout

end SnapshotLedger
