import EmbeddedSql.Number.Decimal

/-!
# The shortest decimal that reads back

A finite number has a finite decimal expansion. Its shortest form is found on
the coarsest decimal grid on which one of the two neighbours of the number is
read back as the number itself; of two such neighbours the nearer one is taken.
Each candidate is tested by reading it, so what is found reads back by its
construction.
-/

namespace EmbeddedSql

/-- Which of two equally near neighbours is taken. -/
inductive TieRule where
  /-- The upper one. -/
  | up
  /-- The one whose last digit is even. -/
  | toEven
  deriving DecidableEq, Repr

/-- A positive number as 0.d₁d₂… × 10 ^ `point`, with neither a zero in front
nor one at the end. -/
structure DigitString where
  /-- The digits d₁, d₂ and so on. -/
  digits : List Char
  /-- How many digits stand before the point. -/
  point : Int
  deriving DecidableEq, Repr

namespace DigitString

/-- The digits of a positive decimal without the zeros at the end. -/
def ofDecimal (d : Decimal) : DigitString :=
  let digits := Nat.toDigits 10 d.significand
  ⟨(digits.reverse.dropWhile (· == '0')).reverse, digits.length + d.exponent⟩

/-- The text with a point where it belongs and without an exponent. Zeros fill
the places between the digits and the point; a whole number has no point. -/
def positional (s : DigitString) : List Char :=
  match s.point with
  | .ofNat 0 => ['0', '.'] ++ s.digits
  | .negSucc n => ['0', '.'] ++ List.replicate (n + 1) '0' ++ s.digits
  | .ofNat n =>
    if s.digits.length ≤ n then s.digits ++ List.replicate (n - s.digits.length) '0'
    else s.digits.take n ++ ['.'] ++ s.digits.drop n

end DigitString

namespace Binary64

/-- The expansion of the finite magnitude of a rank: so many times 10⁻¹⁰⁷⁴. -/
def expansionOfRank (rank : Nat) : Nat :=
  unitsOfRank rank * Nat.pow 5 1074

/-- The number of decimal digits of a number. -/
def digitCount (n : Nat) : Nat :=
  (Nat.toDigits 10 n).length

/-- The two neighbours of a magnitude on a grid of decimals, the nearer one
first. The magnitude is given by its expansion and the grid by the number of
places in front of which it ends. -/
def neighbours (tie : TieRule) (expansion cut : Nat) : List Decimal :=
  let grid := Nat.pow 10 cut
  let lower : Decimal := ⟨expansion / grid, (cut : Int) - 1074⟩
  let upper : Decimal := ⟨expansion / grid + 1, (cut : Int) - 1074⟩
  let twice := 2 * (expansion % grid)
  if grid < twice then [upper, lower]
  else if twice < grid then [lower, upper]
  else if tie = .up ∨ lower.significand % 2 = 1 then [upper, lower]
  else [lower, upper]

/-- The nearer neighbour on a grid that reads back, if one does. -/
def candidate? (tie : TieRule) (rank cut : Nat) : Option Decimal :=
  (neighbours tie (expansionOfRank rank) cut).find? (fun d => d.rank == rank)

/-- The first candidate found while the grid gets finer, starting below so many
places; the whole expansion if none is found within the given number of tries. -/
def shortestFrom (tie : TieRule) (rank tries places : Nat) : Decimal :=
  ((List.range tries).findSome? fun finer => candidate? tie rank (places - 1 - finer)).getD
    ⟨expansionOfRank rank, -1074⟩

/-- The shortest decimal that reads back as the finite magnitude of a rank.
Seventeen digits always suffice. -/
def shortestDecimal (tie : TieRule) (rank : Nat) : Decimal :=
  shortestFrom tie rank 17 (digitCount (expansionOfRank rank))

/-- The digits of the shortest decimal of a positive magnitude. -/
def shortestDigits (tie : TieRule) (rank : Nat) : DigitString :=
  .ofDecimal (shortestDecimal tie rank)

/-- The text of a number: its shortest decimal without an exponent, whole
numbers without a point, zero with its sign, and a name for the others. -/
def text : Binary64 → List Char
  | .finite negative rank =>
    let digits :=
      if rank.val = 0 then ['0'] else (shortestDigits .up rank).positional
    if negative then '-' :: digits else digits
  | .infinity negative => if negative then "-inf".toList else "inf".toList
  | .nan => "NaN".toList

/-- A candidate reads back as the magnitude it was made for. -/
theorem rank_of_candidate? {tie : TieRule} {rank cut : Nat} {d : Decimal}
    (h : candidate? tie rank cut = some d) : d.rank = rank := by
  simpa using List.find?_some h

end Binary64

end EmbeddedSql
