import EmbeddedSql.Number.Binary64

/-!
# Decimal numerals

Numerals in decimal notation and the double-precision number that each denotes:
the nearest one, ties to even. A numeral has a sign, digits with at most one
point among them and perhaps an exponent; the names of the infinities and of
what is no number are numerals as well.
-/

namespace EmbeddedSql

/-- The unsigned decimal number `significand` × 10 ^ `exponent`. -/
structure Decimal where
  /-- The digits, read as one natural number. -/
  significand : Nat
  /-- The power of ten that the digits are multiplied with. -/
  exponent : Int
  deriving DecidableEq, Repr

namespace Decimal

/-- The rank of the magnitude nearest to a decimal. A positive decimal with an
exponent of 309 or more is beyond all finite magnitudes, and one that is below
half a unit by its count of bits alone is zero; neither needs its power of ten. -/
def rank (d : Decimal) : Nat :=
  match d.exponent with
  | .ofNat e =>
    if d.significand = 0 then 0
    else if 309 ≤ e then Binary64.infinityRank
    else Binary64.rankOfRatio (d.significand * Nat.pow 10 e) 1
  | .negSucc e =>
    if d.significand.log2 + 1076 ≤ 3 * (e + 1) then 0
    else Binary64.rankOfRatio d.significand (Nat.pow 10 (e + 1))

/-- The double-precision number nearest to a decimal with a sign. -/
def toBinary64 (negative : Bool) (d : Decimal) : Binary64 :=
  Binary64.ofRank negative d.rank

/-- The value of a decimal digit. -/
def digitValue (c : Char) : Nat :=
  c.toNat - 48

/-- The natural number that a text of decimal digits denotes. -/
def natOfDigits (digits : List Char) : Nat :=
  digits.foldl (fun value c => value * 10 + digitValue c) 0

/-- Reads a sign, if there is one, and gives the rest. -/
def readSign : List Char → Bool × List Char
  | '-' :: rest => (true, rest)
  | '+' :: rest => (false, rest)
  | text => (false, text)

/-- Reads what follows the digits of a numeral: nothing, or an exponent up to
the end of the text. -/
def readExponent? : List Char → Option Int
  | [] => some 0
  | c :: rest =>
    if c = 'e' ∨ c = 'E' then
      let (negative, digits) := readSign rest
      if digits ≠ [] ∧ digits.all Char.isDigit then
        let n : Int := natOfDigits digits
        some (if negative then -n else n)
      else none
    else none

/-- Reads digits with at most one point, at least one digit, and perhaps an
exponent, up to the end of the text. -/
def read? (text : List Char) : Option Decimal :=
  let whole := text.takeWhile Char.isDigit
  let afterWhole := text.dropWhile Char.isDigit
  let (fraction, rest) :=
    match afterWhole with
    | '.' :: more => (more.takeWhile Char.isDigit, more.dropWhile Char.isDigit)
    | _ => ([], afterWhole)
  if whole.isEmpty && fraction.isEmpty then none
  else (readExponent? rest).map fun exponent =>
    ⟨natOfDigits (whole ++ fraction), exponent - fraction.length⟩

end Decimal

/-- The number that a numeral denotes, none if the text is no numeral. Names
are read in any mix of cases. -/
def Binary64.ofText? (text : List Char) : Option Binary64 :=
  let (negative, body) := Decimal.readSign text
  match Decimal.read? body with
  | some d => some (d.toBinary64 negative)
  | none =>
    let name := String.ofList (body.map Char.toLower)
    if name = "inf" ∨ name = "infinity" then some (.infinity negative)
    else if name = "nan" then some .nan
    else none

example : Decimal.read? "12.50e-3".toList = some ⟨1250, -5⟩ := by decide +kernel
example : Decimal.read? "1.".toList = some ⟨1, 0⟩ := by decide +kernel
example : Decimal.read? "1.2.3".toList = none := by decide +kernel
example : Decimal.read? ".".toList = none := by decide +kernel

end EmbeddedSql
