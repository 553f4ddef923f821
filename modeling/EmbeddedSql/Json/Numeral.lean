import EmbeddedSql.Number.Shortest

/-!
# Numbers in JSON

A JSON number as it is written, the ways of reading it as a double-precision
number, and the notation in which one is written. There are two ways of
reading: the exact one rounds once, and the quick one works with 64-bit
integers and a few double-precision steps, each of which rounds.
-/

namespace EmbeddedSql.Json

/-- A number as JSON writes it. -/
structure Numeral where
  /-- Whether a minus sign stands in front. -/
  negative : Bool
  /-- The digits before the point. -/
  whole : Nat
  /-- The digits behind the point; none if there is no point. -/
  fraction : List Char
  /-- The exponent, if one is written. -/
  exponent : Option Int
  deriving DecidableEq, Repr

/-- A way of reading numerals as numbers; none if the number is too large. -/
abbrev NumberReading := Numeral → Option Binary64

namespace Numeral

/-- The text of a numeral. An exponent always has its sign. -/
def text (n : Numeral) : List Char :=
  (if n.negative then ['-'] else []) ++ Nat.toDigits 10 n.whole ++
    (if n.fraction.isEmpty then [] else '.' :: n.fraction) ++
    match n.exponent with
    | none => []
    | some e => (if e < 0 then ['e', '-'] else ['e', '+']) ++ Nat.toDigits 10 e.natAbs

/-- A number if it is finite. -/
def finite? (n : Binary64) : Option Binary64 :=
  if n.isFinite then some n else none

/-- Reads a numeral as the number nearest to it. -/
def exact (n : Numeral) : Option Binary64 :=
  let digits := Nat.toDigits 10 n.whole ++ n.fraction
  let exponent := n.exponent.getD 0 - n.fraction.length
  finite? (Decimal.toBinary64 n.negative ⟨Decimal.natOfDigits digits, exponent⟩)

/-- Digits gathered in 64 bits, and the power of ten they are multiplied with. -/
structure Gathered where
  /-- The digits gathered so far. -/
  significand : Nat
  /-- The power of ten. -/
  exponent : Int
  deriving DecidableEq, Repr

/-- Whether one more digit still fits into 64 bits. -/
def Gathered.takes (g : Gathered) (digit : Nat) : Bool :=
  g.significand * 10 + digit < Nat.pow 2 64

/-- Gathers digits before the point. From the first one on that does not fit,
each digit only counts as a place. -/
def gatherWhole (g : Gathered) : List Char → Gathered
  | [] => g
  | c :: rest =>
    let digit := Decimal.digitValue c
    if g.takes digit then gatherWhole ⟨g.significand * 10 + digit, g.exponent⟩ rest
    else ⟨g.significand, g.exponent + (rest.length + 1 : Nat)⟩

/-- Gathers digits behind the point. From the first one on that does not fit,
none of them counts. -/
def gatherFraction (g : Gathered) : List Char → Gathered
  | [] => g
  | c :: rest =>
    let digit := Decimal.digitValue c
    if g.takes digit then gatherFraction ⟨g.significand * 10 + digit, g.exponent - 1⟩ rest
    else g

/-- The number nearest to a power of ten. -/
def powerOfTen (exponent : Nat) : Binary64 :=
  Decimal.toBinary64 false ⟨1, exponent⟩

/-- Divides by 10³⁰⁸ until the exponent is no less than -308 or nothing is
left; after two such steps nothing is. -/
def scaleUp : Nat → Binary64 → Int → Binary64 × Int
  | 0, x, exponent => (x, exponent)
  | steps + 1, x, exponent =>
    if exponent < -308 ∧ !x.isZero then
      scaleUp steps (x.divFinite (powerOfTen 308)) (exponent + 308)
    else (x, exponent)

/-- Multiplies gathered digits with their power of ten. -/
def scale (g : Gathered) : Option Binary64 :=
  let (x, exponent) := scaleUp 3 (.ofNat g.significand) g.exponent
  if x.isZero then some x
  else if 308 < exponent then none
  else if 0 ≤ exponent then finite? (x.mulFinite (powerOfTen exponent.toNat))
  else some (x.divFinite (powerOfTen exponent.natAbs))

/-- Whether a numeral is a whole number that 64 bits hold: without point and
exponent, and if negative with its sign bit besides. Minus zero is not one. -/
def isInteger64 (n : Numeral) : Bool :=
  n.fraction.isEmpty && n.exponent.isNone &&
    (if n.negative then 0 < n.whole && n.whole ≤ Nat.pow 2 63 else n.whole < Nat.pow 2 64)

/-- Reads a numeral by way of 64-bit digits and single steps. -/
def stepwise (n : Numeral) : Option Binary64 :=
  let g := gatherFraction (gatherWhole ⟨0, 0⟩ (Nat.toDigits 10 n.whole)) n.fraction
  (scale ⟨g.significand, g.exponent + n.exponent.getD 0⟩).map fun x =>
    if n.negative then x.neg else x

/-- Reads whole numbers of 64 bits as the number nearest to them, and all other
numerals in a way of its own. A number that is not finite is too large. -/
def withIntegers (double : NumberReading) : NumberReading := fun n =>
  if n.isInteger64 then some (.ofRatio n.negative n.whole 1) else (double n).bind finite?

/-- Reads whole numbers of 64 bits as they are, and other numerals step by step. -/
def quick : NumberReading :=
  withIntegers stepwise

/-- A numeral that is a whole number. -/
def ofInt (n : Int) : Numeral :=
  ⟨decide (n < 0), n.natAbs, [], none⟩

/-- The notation of a number that is no small whole number: positional with at
least one digit on either side of the point from 10⁻⁵ up to below 10¹⁶, else
with an exponent and one digit before the point. -/
def ofDigits (negative : Bool) (s : DigitString) : Numeral :=
  if -5 < s.point ∧ s.point ≤ 0 then
    ⟨negative, 0, List.replicate s.point.natAbs '0' ++ s.digits, none⟩
  else if 0 < s.point ∧ s.point ≤ 16 then
    let before := s.point.toNat
    let padded := s.digits ++ List.replicate (before - s.digits.length) '0'
    let behind := padded.drop before
    ⟨negative, Decimal.natOfDigits (padded.take before), if behind.isEmpty then ['0'] else behind,
      none⟩
  else
    ⟨negative, Decimal.natOfDigits (s.digits.take 1), s.digits.drop 1, some (s.point - 1)⟩

/-- The numeral of a finite number, none for the others. Whole numbers up to
2⁵³ are written as such, and both zeros as zero. -/
def ofNumber? (n : Binary64) : Option Numeral :=
  match n with
  | .finite negative rank =>
    match n.toInt? with
    | some i => if i.natAbs ≤ Nat.pow 2 53 then some (ofInt i)
      else some (ofDigits negative (Binary64.shortestDigits .toEven rank))
    | none => some (ofDigits negative (Binary64.shortestDigits .toEven rank))
  | _ => none

end Numeral

end EmbeddedSql.Json
