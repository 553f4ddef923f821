import EmbeddedSql.Number.Binary64
import Mathlib

/-!
# Comparing numbers by what they amount to

Numbers are compared by their places on the line of all numbers. The places are in the order
of the amounts: a finite number is a whole number of units of 2⁻¹⁰⁷⁴, which grows with the rank
of its magnitude, and the infinities lie beyond all of these. So the comparisons hold if and
only if they hold of the amounts, and never for what is no number.
-/

namespace EmbeddedSql.Binary64

/-- What a number amounts to in units of 2⁻¹⁰⁷⁴; nothing for what is no number. -/
def amount? : Binary64 → Option (WithBot (WithTop ℤ))
  | .finite negative rank =>
    let units : ℤ := unitsOfRank rank
    some ((if negative then -units else units : ℤ) : WithTop ℤ)
  | .infinity negative => some (if negative then ⊥ else ⊤)
  | .nan => none

/-! ## Amounts grow with places -/

/-- The next rank amounts to more: its fraction is greater by one, or it has the next exponent
and no fraction. -/
theorem unitsOfRank_strictMono : StrictMono unitsOfRank := by
  refine strictMono_nat_of_lt_succ fun rank => ?_
  simp only [unitsOfRank, Nat.pow_eq]
  have hparts := Nat.div_add_mod rank (2 ^ 52)
  have hfraction : rank % 2 ^ 52 < 2 ^ 52 := Nat.mod_lt _ (Nat.two_pow_pos 52)
  generalize rank / 2 ^ 52 = exponent at hparts ⊢
  generalize rank % 2 ^ 52 = fraction at hparts hfraction ⊢
  by_cases hlast : fraction + 1 < 2 ^ 52
  · have hnext : rank + 1 = 2 ^ 52 * exponent + (fraction + 1) := by omega
    have hdiv : (rank + 1) / 2 ^ 52 = exponent := by
      rw [hnext, Nat.mul_add_div (Nat.two_pow_pos 52), Nat.div_eq_of_lt hlast, Nat.add_zero]
    have hmod : (rank + 1) % 2 ^ 52 = fraction + 1 := by
      rw [hnext, Nat.mul_add_mod, Nat.mod_eq_of_lt hlast]
    rw [hdiv, hmod]
    split
    · exact Nat.lt_succ_self fraction
    · exact Nat.mul_lt_mul_of_pos_right (Nat.lt_succ_self _) (Nat.two_pow_pos _)
  · have hnext : rank + 1 = 2 ^ 52 * (exponent + 1) := by omega
    have hdiv : (rank + 1) / 2 ^ 52 = exponent + 1 := by
      rw [hnext, Nat.mul_div_cancel_left _ (Nat.two_pow_pos 52)]
    have hmod : (rank + 1) % 2 ^ 52 = 0 := by
      rw [hnext, Nat.mul_mod_right]
    rw [hdiv, hmod, if_neg (Nat.succ_ne_zero exponent), Nat.add_sub_cancel, Nat.add_zero]
    split
    next hzero =>
      rw [hzero, Nat.pow_zero, Nat.mul_one]
      exact hfraction
    next hpositive =>
      have hdouble : 2 ^ exponent = 2 * 2 ^ (exponent - 1) := by
        rw [← Nat.pow_succ', Nat.succ_eq_add_one, Nat.sub_add_cancel (by omega)]
      rw [hdouble, ← Nat.mul_assoc]
      exact Nat.mul_lt_mul_of_pos_right (by omega) (Nat.two_pow_pos _)

/-- The units of the magnitude at a place, with its sign. -/
def unitsAt (place : ℤ) : ℤ :=
  if place < 0 then -(unitsOfRank place.natAbs : ℤ) else unitsOfRank place.natAbs

/-- The units grow with the places. -/
theorem unitsAt_strictMono : StrictMono unitsAt := by
  intro p q hpq
  have hlt {a b : ℕ} (h : a < b) : (unitsOfRank a : ℤ) < unitsOfRank b :=
    Int.ofNat_lt.mpr (unitsOfRank_strictMono h)
  unfold unitsAt
  split
  · split
    · exact Int.neg_lt_neg (hlt (by omega))
    next hp hq =>
      have hpositive : (unitsOfRank 0 : ℤ) < unitsOfRank p.natAbs := hlt (by omega)
      have hzero : unitsOfRank 0 = 0 := rfl
      omega
  · split
    · omega
    · exact hlt (by omega)

/-- What the number at a place amounts to. -/
def amountAt (place : ℤ) : WithBot (WithTop ℤ) :=
  if place = infinityRank then ⊤
  else if place = -infinityRank then ⊥
  else (unitsAt place : WithTop ℤ)

/-- The places of numbers lie between those of the infinities. -/
abbrev Places : Set ℤ := Set.Icc (-infinityRank) infinityRank

/-- The amounts grow with the places, those of the infinities included. -/
theorem amountAt_strictMonoOn : StrictMonoOn amountAt Places := by
  rintro p ⟨hp, -⟩ q ⟨-, hq⟩ hpq
  have hfirst : p ≠ infinityRank := by omega
  have hsecond : q ≠ -infinityRank := by omega
  rw [amountAt, amountAt, if_neg hfirst, if_neg hsecond]
  split
  · split
    · exact bot_lt_top
    · exact WithBot.bot_lt_coe _
  · split
    · exact WithBot.coe_lt_coe.mpr (WithTop.coe_lt_top _)
    · exact WithBot.coe_lt_coe.mpr (WithTop.coe_lt_coe.mpr (unitsAt_strictMono hpq))

variable {x y : Binary64}

/-- The place of a number lies between those of the infinities. -/
theorem mem_places_of_place? {p : ℤ} (h : x.place? = some p) : p ∈ Places := by
  cases x with
  | finite negative rank =>
    obtain ⟨rank, hrank⟩ := rank
    obtain rfl := Option.some.inj h
    split
    · exact ⟨by omega, by omega⟩
    · exact ⟨by omega, by omega⟩
  | infinity negative =>
    obtain rfl := Option.some.inj h
    split
    · exact ⟨le_rfl, by omega⟩
    · exact ⟨by omega, le_rfl⟩
  | nan => cases h

/-- Between the places of the infinities the amounts are those of the units. -/
theorem amountAt_of_finite {place : ℤ} (hn : -infinityRank < place) (hp : place < infinityRank) :
    amountAt place = (unitsAt place : WithTop ℤ) := by
  have hfirst : place ≠ infinityRank := by omega
  have hsecond : place ≠ -infinityRank := by omega
  rw [amountAt, if_neg hfirst, if_neg hsecond]

/-- A number amounts to what is at its place. -/
theorem amount?_eq (x : Binary64) : x.amount? = x.place?.map amountAt := by
  cases x with
  | finite negative rank =>
    obtain ⟨rank, hrank⟩ := rank
    cases negative with
    | false =>
      have hunits : unitsAt rank = unitsOfRank rank := if_neg (by omega)
      have hamount : amountAt rank = (unitsAt rank : WithTop ℤ) :=
        amountAt_of_finite (by omega) (by omega)
      rw [hunits] at hamount
      exact congrArg some hamount.symm
    | true =>
      have hunits : unitsAt (-rank) = -unitsOfRank rank := by
        rcases Nat.eq_zero_or_pos rank with rfl | hpositive
        · rfl
        · rw [unitsAt, if_pos (by omega), Int.natAbs_neg, Int.natAbs_natCast]
      have hamount : amountAt (-rank) = (unitsAt (-rank) : WithTop ℤ) :=
        amountAt_of_finite (by omega) (by omega)
      rw [hunits] at hamount
      exact congrArg some hamount.symm
  | infinity negative =>
    cases negative with
    | false => rfl
    | true => rfl
  | nan => rfl

/-! ## The comparisons -/

/-- A comparison of places that agrees with one of amounts holds of numbers if the latter
holds of what they amount to. -/
theorem compareBy_iff {relation : ℤ → ℤ → Bool}
    {R : WithBot (WithTop ℤ) → WithBot (WithTop ℤ) → Prop}
    (h : ∀ p ∈ Places, ∀ q ∈ Places, relation p q = true ↔ R (amountAt p) (amountAt q)) :
    compareBy relation x y = true ↔
      ∃ a b, x.amount? = some a ∧ y.amount? = some b ∧ R a b := by
  rw [amount?_eq, amount?_eq, compareBy]
  cases hx : x.place? with
  | none => simp
  | some p =>
    cases hy : y.place? with
    | none => simp
    | some q => simp [h p (mem_places_of_place? hx) q (mem_places_of_place? hy)]

/-- Two numbers are equal exactly if they amount to the same, so the two zeros are and what is
no number never is. -/
theorem numEq_iff_amount :
    x.numEq y = true ↔ ∃ a b, x.amount? = some a ∧ y.amount? = some b ∧ a = b :=
  compareBy_iff fun p hp q hq => by
    rw [decide_eq_true_iff, amountAt_strictMonoOn.eq_iff_eq hp hq]

/-- A number is less than another one exactly if it amounts to less. -/
theorem numLt_iff_amount :
    x.numLt y = true ↔ ∃ a b, x.amount? = some a ∧ y.amount? = some b ∧ a < b :=
  compareBy_iff fun p hp q hq => by
    rw [decide_eq_true_iff, amountAt_strictMonoOn.lt_iff_lt hp hq]

/-- A number is at most another one exactly if it amounts to that or less. -/
theorem numLe_iff_amount :
    x.numLe y = true ↔ ∃ a b, x.amount? = some a ∧ y.amount? = some b ∧ a ≤ b :=
  compareBy_iff fun p hp q hq => by
    rw [decide_eq_true_iff, amountAt_strictMonoOn.le_iff_le hp hq]

end EmbeddedSql.Binary64
