/-!
# Double-precision numbers

The numbers of IEEE 754's format binary64, without any floating-point
operation: every magnitude is known by its rank among the magnitudes, and every
finite magnitude is a whole number of units of 2⁻¹⁰⁷⁴. Comparing is comparing
ranks, and rounding a quotient is one exact division. The module defines the
rounding, the order, and the product and quotient, each as the exact result
rounded once.
-/

namespace EmbeddedSql

/-- The rank of infinity: one above the greatest finite magnitude. The rank
holds the biased exponent above the 52 bits of the fraction. -/
abbrev Binary64.infinityRank : Nat := 2047 * Nat.pow 2 52

/-- A number of the format binary64. All the format's patterns that are no
number are one value here, since nothing tells them apart. -/
inductive Binary64 where
  /-- A finite number: its sign and the rank of its magnitude, zero first. -/
  | finite (negative : Bool) (rank : Fin Binary64.infinityRank)
  /-- An infinity with its sign. -/
  | infinity (negative : Bool)
  /-- Not a number. -/
  | nan
  deriving DecidableEq, Repr

namespace Binary64

/-- How many units of 2⁻¹⁰⁷⁴ the finite magnitude of a rank amounts to. -/
def unitsOfRank (rank : Nat) : Nat :=
  let exponent := rank / Nat.pow 2 52
  let fraction := rank % Nat.pow 2 52
  if exponent = 0 then fraction else (Nat.pow 2 52 + fraction) * Nat.pow 2 (exponent - 1)

/-- The quotient of two numbers rounded to the nearest whole number, a half to
the even neighbour. -/
def roundHalfEven (numerator denominator : Nat) : Nat :=
  let quotient := numerator / denominator
  let twice := 2 * (numerator % denominator)
  if twice < denominator then quotient
  else if denominator < twice then quotient + 1
  else quotient + quotient % 2

/-- The rank of the magnitude nearest to a quotient, ties to even. The units
have to be scaled down until 53 bits remain; ranks from `infinityRank` on mean
infinity. -/
def rankOfRatio (numerator denominator : Nat) : Nat :=
  let units := numerator * Nat.pow 2 1074
  let scale := (units / denominator).log2 - 52
  scale * Nat.pow 2 52 + roundHalfEven units (denominator * Nat.pow 2 scale)

/-- The number with a sign and a rank. -/
def ofRank (negative : Bool) (rank : Nat) : Binary64 :=
  if h : rank < infinityRank then .finite negative ⟨rank, h⟩ else .infinity negative

/-- The number nearest to a quotient with a sign, ties to even; an infinity if
the quotient is too large. -/
def ofRatio (negative : Bool) (numerator denominator : Nat) : Binary64 :=
  ofRank negative (rankOfRatio numerator denominator)

/-- The number nearest to a natural number. -/
def ofNat (n : Nat) : Binary64 :=
  ofRatio false n 1

/-- The number nearest to an integer. -/
def ofInt (n : Int) : Binary64 :=
  ofRatio (decide (n < 0)) n.natAbs 1

/-- Positive zero. -/
def zero : Binary64 :=
  .finite false ⟨0, by decide⟩

instance : Inhabited Binary64 := ⟨zero⟩

/-- The number with the other sign. -/
def neg : Binary64 → Binary64
  | .finite negative rank => .finite (!negative) rank
  | .infinity negative => .infinity (!negative)
  | .nan => .nan

/-- Whether the number is finite. -/
def isFinite : Binary64 → Bool
  | .finite .. => true
  | _ => false

/-- Whether the number is one of the two zeros. -/
def isZero : Binary64 → Bool
  | .finite _ rank => rank.val == 0
  | _ => false

/-- The place of a number on the line of all numbers. The two zeros share a
place, and what is no number has none. -/
def place? : Binary64 → Option Int
  | .finite negative rank => some (if negative then -(rank.val : Int) else rank.val)
  | .infinity negative => some (if negative then -(infinityRank : Int) else infinityRank)
  | .nan => none

/-- Whether a relation holds between the places of two numbers; false if one
of them has no place. -/
def compareBy (relation : Int → Int → Bool) (x y : Binary64) : Bool :=
  match x.place?, y.place? with
  | some a, some b => relation a b
  | _, _ => false

/-- Equality as numbers: the zeros are equal, and what is no number equals
nothing, itself included. -/
def numEq (x y : Binary64) : Bool :=
  compareBy (fun a b => decide (a = b)) x y

example : numEq zero (neg zero) = true := by decide

example : numEq .nan .nan = false := rfl

/-- Strict order of numbers. -/
def numLt (x y : Binary64) : Bool :=
  compareBy (fun a b => decide (a < b)) x y

/-- Order of numbers. -/
def numLe (x y : Binary64) : Bool :=
  compareBy (fun a b => decide (a ≤ b)) x y

/-- The product of two finite numbers, rounded once; not a number if one of
them is not finite. -/
def mulFinite : Binary64 → Binary64 → Binary64
  | .finite s x, .finite t y =>
    ofRatio (s != t) (unitsOfRank x * unitsOfRank y) (Nat.pow 2 2148)
  | _, _ => .nan

/-- The quotient of two finite numbers, rounded once; not a number if one of
them is not finite or the divisor is zero. -/
def divFinite : Binary64 → Binary64 → Binary64
  | .finite s x, .finite t y =>
    if y.val = 0 then .nan else ofRatio (s != t) (unitsOfRank x) (unitsOfRank y)
  | _, _ => .nan

/-- The whole number that a finite number is, none if it has a fraction. -/
def toInt? : Binary64 → Option Int
  | .finite negative rank =>
    let units := unitsOfRank rank
    if units % Nat.pow 2 1074 = 0 then
      let n := Int.ofNat (units / Nat.pow 2 1074)
      some (if negative then -n else n)
    else none
  | _ => none

/-- A number that is one equals itself. -/
theorem numEq_self {x : Binary64} (h : x ≠ .nan) : numEq x x = true := by
  cases x <;> simp_all [numEq, compareBy, place?]

end Binary64

end EmbeddedSql
