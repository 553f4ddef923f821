import EmbeddedSql.Number.Decimal
import Mathlib.Algebra.Group.Nat.Defs
import Mathlib.Data.Nat.Log

/-!
# Rounding depends on the quotient alone

The rank to which a quotient is rounded is the same for every fraction that
stands for it, and a finite magnitude is rounded to its own rank. A decimal is
rounded as the fraction that it is: the two short cuts for very large and very
small exponents change nothing for decimals within the finite range. Bounds of the rank
of a whole number by its leading bit tell what that range is.
-/

namespace EmbeddedSql

namespace Binary64

/-! ## Quotients -/

/-- Rounding to a whole number does not depend on how a quotient is written. -/
theorem roundHalfEven_mul (numerator denominator : Nat) {factor : Nat} (hf : 0 < factor) :
    roundHalfEven (numerator * factor) (denominator * factor) =
      roundHalfEven numerator denominator := by
  have hquotient : numerator * factor / (denominator * factor) = numerator / denominator :=
    Nat.mul_div_mul_right numerator denominator hf
  have hrest : 2 * (numerator * factor % (denominator * factor)) =
      2 * (numerator % denominator) * factor := by
    rw [Nat.mul_mod_mul_right, Nat.mul_assoc]
  simp only [roundHalfEven, hquotient, hrest, Nat.mul_lt_mul_right hf]

/-- A whole number is rounded to itself. -/
theorem roundHalfEven_mul_self (n : Nat) {denominator : Nat} (hd : 0 < denominator) :
    roundHalfEven (n * denominator) denominator = n := by
  have hquotient : n * denominator / denominator = n := Nat.mul_div_cancel n hd
  have hrest : n * denominator % denominator = 0 := Nat.mul_mod_left n denominator
  simp only [roundHalfEven, hquotient, hrest, Nat.mul_zero, if_pos hd]

/-- The rank of a quotient, given how many units there are in one. -/
def rankInUnits (unit numerator denominator : Nat) : Nat :=
  let units := numerator * unit
  let scale := (units / denominator).log2 - 52
  scale * Nat.pow 2 52 + roundHalfEven units (denominator * Nat.pow 2 scale)

/-- How many units there are in one. The number is never computed in a proof. -/
@[irreducible]
def unitsInOne : Nat := Nat.pow 2 1074

/-- The units in one are a power of two. -/
theorem unitsInOne_eq : unitsInOne = Nat.pow 2 1074 := by
  unfold unitsInOne
  rfl

/-- The rank of a quotient is that for the units in one. -/
theorem rankOfRatio_eq (numerator denominator : Nat) :
    rankOfRatio numerator denominator = rankInUnits unitsInOne numerator denominator := by
  rw [unitsInOne_eq]
  rfl

/-- The rank of a quotient does not depend on how the quotient is written. -/
theorem rankInUnits_mul (unit numerator denominator : Nat) {factor : Nat} (hf : 0 < factor) :
    rankInUnits unit (numerator * factor) (denominator * factor) =
      rankInUnits unit numerator denominator := by
  have hunits : numerator * factor * unit = numerator * unit * factor :=
    Nat.mul_right_comm numerator factor unit
  have hscaled (scale : Nat) :
      denominator * factor * Nat.pow 2 scale = denominator * Nat.pow 2 scale * factor :=
    Nat.mul_right_comm denominator factor _
  simp only [rankInUnits, hunits, hscaled, Nat.mul_div_mul_right _ _ hf, roundHalfEven_mul _ _ hf]

/-- Two fractions of one value have one rank. -/
theorem rankInUnits_congr (unit : Nat) {a b c d : Nat} (hb : 0 < b) (hd : 0 < d)
    (h : a * d = c * b) : rankInUnits unit a b = rankInUnits unit c d := by
  calc rankInUnits unit a b = rankInUnits unit (a * d) (b * d) :=
        (rankInUnits_mul unit a b hd).symm
    _ = rankInUnits unit (c * b) (d * b) := by rw [h, Nat.mul_comm b d]
    _ = rankInUnits unit c d := rankInUnits_mul unit c d hb

/-- A magnitude with 53 bits and a power of two has its leading bit at this
place. -/
theorem log2_units {fraction : Nat} (hf : fraction < Nat.pow 2 52) (places : Nat) :
    ((Nat.pow 2 52 + fraction) * Nat.pow 2 places).log2 = places + 52 := by
  simp only [Nat.pow_eq] at hf ⊢
  have hpositive : 0 < 2 ^ places := Nat.two_pow_pos places
  refine (Nat.log2_eq_iff ?_).mpr ⟨?_, ?_⟩
  · exact Nat.mul_ne_zero (by omega) (by omega)
  · rw [Nat.pow_add, Nat.mul_comm]
    exact Nat.mul_le_mul_right _ (by omega)
  · have hbound : 2 ^ 52 + fraction < 2 ^ 53 := by omega
    calc (2 ^ 52 + fraction) * 2 ^ places < 2 ^ 53 * 2 ^ places :=
          Nat.mul_lt_mul_of_pos_right hbound hpositive
      _ = 2 ^ (places + 52 + 1) := by rw [← Nat.pow_add]; congr 1; omega

/-- So many units are rounded to so many steps of the scale, if they make up a
whole number of them. -/
theorem rankInUnits_of_scale {unit units steps scale : Nat} (hunit : 0 < unit)
    (hlog : units.log2 - 52 = scale) (hunits : units = steps * 2 ^ scale) :
    rankInUnits unit units unit = scale * 2 ^ 52 + steps := by
  have hscaled : units * unit = steps * (unit * 2 ^ scale) := by
    rw [hunits, Nat.mul_assoc, Nat.mul_comm (2 ^ scale)]
  simp only [rankInUnits, Nat.pow_eq]
  rw [Nat.mul_div_cancel units hunit, hlog, hscaled,
    roundHalfEven_mul_self steps (Nat.mul_pos hunit (Nat.two_pow_pos scale))]

/-- A finite magnitude has its own rank. -/
theorem rankInUnits_unitsOfRank {unit : Nat} (hunit : 0 < unit) (rank : Nat) :
    rankInUnits unit (unitsOfRank rank) unit = rank := by
  have hparts := Nat.div_add_mod rank (2 ^ 52)
  have hfraction : rank % 2 ^ 52 < 2 ^ 52 := Nat.mod_lt _ (Nat.two_pow_pos 52)
  by_cases he : rank / 2 ^ 52 = 0
  · have hsmall : rank = rank % 2 ^ 52 := by omega
    have hunits : unitsOfRank rank = rank := by
      simp only [unitsOfRank, Nat.pow_eq, if_pos he]
      exact hsmall.symm
    have hlog : rank.log2 - 52 = 0 := by
      by_cases hz : rank = 0
      · rw [hz, Nat.log2_zero]
      · have hbits : rank.log2 < 52 := (Nat.log2_lt hz).mpr (by omega)
        omega
    have hsteps : rank = rank * 2 ^ 0 := (Nat.mul_one rank).symm
    rw [hunits, rankInUnits_of_scale hunit hlog hsteps, Nat.zero_mul, Nat.zero_add]
  · have hunits : unitsOfRank rank =
        (Nat.pow 2 52 + rank % 2 ^ 52) * Nat.pow 2 (rank / 2 ^ 52 - 1) := by
      simp only [unitsOfRank, Nat.pow_eq, if_neg he]
    have hlog := log2_units hfraction (rank / 2 ^ 52 - 1)
    rw [← hunits] at hlog
    rw [rankInUnits_of_scale hunit (by omega) hunits]
    simp only [Nat.pow_eq]
    omega

/-- A magnitude has its own rank also when it is given by its decimal expansion. -/
theorem rankInUnits_expansion {unit places : Nat} (h : unit = Nat.pow 2 places) (rank : Nat) :
    rankInUnits unit (unitsOfRank rank * Nat.pow 5 places) (10 ^ places) = rank := by
  rw [h]
  have hunit : 0 < Nat.pow 2 places := Nat.two_pow_pos places
  have hcross : unitsOfRank rank * Nat.pow 5 places * Nat.pow 2 places =
      unitsOfRank rank * 10 ^ places := by
    rw [Nat.mul_assoc, Nat.pow_eq, Nat.pow_eq, ← Nat.mul_pow]
  rw [rankInUnits_congr _ (Nat.pow_pos (by decide)) hunit hcross]
  exact rankInUnits_unitsOfRank hunit rank

/-- What is less than half a unit is rounded to zero. -/
theorem rankInUnits_eq_zero {unit numerator denominator : Nat}
    (h : 2 * (numerator * unit) < denominator) : rankInUnits unit numerator denominator = 0 := by
  have hsmall : numerator * unit < denominator := by omega
  have hquotient : numerator * unit / denominator = 0 := Nat.div_eq_of_lt hsmall
  have hround : roundHalfEven (numerator * unit) denominator = 0 := by
    simp only [roundHalfEven, hquotient, Nat.mod_eq_of_lt hsmall, if_pos h]
  simp only [rankInUnits, hquotient, Nat.log2_zero, Nat.zero_sub, Nat.pow_eq, Nat.pow_zero,
    Nat.mul_one, Nat.zero_mul, Nat.zero_add, hround]

/-- The rank of zero is zero. -/
theorem rankOfRatio_zero : rankOfRatio 0 1 = 0 := by
  have hzero (unit : Nat) : rankInUnits unit 0 1 = 0 := by
    refine rankInUnits_eq_zero ?_
    rw [Nat.zero_mul]
    exact Nat.one_pos
  exact (rankOfRatio_eq 0 1).trans (hzero unitsInOne)

/-! ## How large a rank is -/

/-- Rounding to a whole number is off by less than one. -/
theorem roundHalfEven_bounds (numerator denominator : Nat) :
    numerator / denominator ≤ roundHalfEven numerator denominator ∧
      roundHalfEven numerator denominator ≤ numerator / denominator + 1 := by
  simp only [roundHalfEven]
  split
  · omega
  · split <;> omega

/-- A number scaled down to its 53 leading bits. -/
theorem scaled_bounds {units : Nat} (h : units ≠ 0) :
    units / 2 ^ (units.log2 - 52) < 2 ^ 53 ∧
      (52 ≤ units.log2 → 2 ^ 52 ≤ units / 2 ^ (units.log2 - 52)) := by
  have hlt : units < 2 ^ (units.log2 + 1) := Nat.lt_log2_self
  constructor
  · rw [Nat.div_lt_iff_lt_mul (Nat.two_pow_pos _), ← Nat.pow_add]
    exact Nat.lt_of_lt_of_le hlt (Nat.pow_le_pow_right (by decide) (by omega))
  · intro hl
    rw [Nat.le_div_iff_mul_le (Nat.two_pow_pos _), ← Nat.pow_add]
    have he : 52 + (units.log2 - 52) = units.log2 := by omega
    rw [he]
    exact Nat.log2_self_le h

/-- How large a rank is, by the leading bit of the whole number that is rounded. -/
theorem rankInUnits_bounds {unit n : Nat} (h : n * unit ≠ 0) :
    rankInUnits unit n 1 ≤ ((n * unit).log2 - 52 + 2) * 2 ^ 52 ∧
      (52 ≤ (n * unit).log2 → ((n * unit).log2 - 52 + 1) * 2 ^ 52 ≤ rankInUnits unit n 1) := by
  obtain ⟨hupper, hlower⟩ := scaled_bounds h
  simp only [rankInUnits, Nat.div_one, Nat.one_mul, Nat.pow_eq]
  obtain ⟨hmin, hmax⟩ := roundHalfEven_bounds (n * unit) (2 ^ ((n * unit).log2 - 52))
  generalize (n * unit).log2 - 52 = scale at *
  constructor
  · omega
  · intro hl
    have := hlower hl
    omega

/-- The leading bit of a number that is moved up by so many places. -/
theorem log2_mul_two_pow {n places : Nat} (hn : n ≠ 0) :
    (n * 2 ^ places).log2 = n.log2 + places := by
  have hpos : 0 < 2 ^ places := Nat.two_pow_pos places
  refine (Nat.log2_eq_iff (Nat.mul_ne_zero hn hpos.ne')).mpr ⟨?_, ?_⟩
  · rw [Nat.pow_add]
    exact Nat.mul_le_mul_right _ (Nat.log2_self_le hn)
  · have hlt : n < 2 ^ (n.log2 + 1) := Nat.lt_log2_self
    calc n * 2 ^ places < 2 ^ (n.log2 + 1) * 2 ^ places := Nat.mul_lt_mul_of_pos_right hlt hpos
      _ = 2 ^ (n.log2 + places + 1) := by rw [← Nat.pow_add]; congr 1; omega

/-- The leading bit of a whole number tells its rank up to one step of the exponent. -/
theorem rankOfRatio_one_bounds {n : Nat} (hn : n ≠ 0) :
    rankOfRatio n 1 ≤ (n.log2 + 1024) * 2 ^ 52 ∧ (n.log2 + 1023) * 2 ^ 52 ≤ rankOfRatio n 1 := by
  obtain ⟨places, hplaces⟩ : ∃ places, 1074 = places := ⟨1074, rfl⟩
  have hunit : unitsInOne = 2 ^ places := by rw [unitsInOne_eq, hplaces, Nat.pow_eq]
  have hne : n * 2 ^ places ≠ 0 := Nat.mul_ne_zero hn (Nat.two_pow_pos places).ne'
  obtain ⟨hupper, hlower⟩ := rankInUnits_bounds hne
  rw [log2_mul_two_pow hn] at hupper hlower
  rw [rankOfRatio_eq, hunit]
  have hscale : n.log2 + places - 52 = n.log2 + 1022 := by omega
  rw [hscale] at hupper hlower
  exact ⟨hupper, hlower (by omega)⟩

/-- A whole number of fewer than 1024 bits is within the finite range. -/
theorem rankOfRatio_lt_infinityRank {n : Nat} (h : n.log2 < 1023) :
    rankOfRatio n 1 < infinityRank := by
  rcases Nat.eq_zero_or_pos n with rfl | hn
  · rw [rankOfRatio_zero]
    decide
  · have := (rankOfRatio_one_bounds hn.ne').1
    simp only [infinityRank, Nat.pow_eq]
    omega

/-- A whole number of more than 1024 bits is beyond it. -/
theorem infinityRank_le_rankOfRatio {n : Nat} (h : 1024 ≤ n.log2) :
    infinityRank ≤ rankOfRatio n 1 := by
  have hn : n ≠ 0 := by
    rintro rfl
    rw [Nat.log2_zero] at h
    omega
  calc infinityRank ≤ (n.log2 + 1023) * 2 ^ 52 := Nat.mul_le_mul_right _ (by omega)
    _ ≤ rankOfRatio n 1 := (rankOfRatio_one_bounds hn).2

/-! ## Whole numbers -/

/-- There are units in one. -/
theorem unitsInOne_pos : 0 < unitsInOne := by
  obtain ⟨places, hplaces⟩ : ∃ places, 1074 = places := ⟨1074, rfl⟩
  rw [unitsInOne_eq, hplaces]
  exact Nat.two_pow_pos places

/-- The whole number that a finite number is. -/
theorem toInt?_finite (negative : Bool) (rank : Fin infinityRank) :
    (finite negative rank).toInt? =
      if unitsOfRank rank % unitsInOne = 0 then
        some (if negative then -Int.ofNat (unitsOfRank rank / unitsInOne)
          else Int.ofNat (unitsOfRank rank / unitsInOne))
      else none := by
  rw [unitsInOne_eq]
  rfl

/-- A whole number of units is rounded to the magnitude that it is. -/
theorem rankOfRatio_whole {rank : Nat} (h : unitsOfRank rank % unitsInOne = 0) :
    rankOfRatio (unitsOfRank rank / unitsInOne) 1 = rank := by
  calc rankOfRatio (unitsOfRank rank / unitsInOne) 1
      = rankInUnits unitsInOne (unitsOfRank rank / unitsInOne * unitsInOne) (1 * unitsInOne) := by
        rw [rankOfRatio_eq, rankInUnits_mul _ _ _ unitsInOne_pos]
    _ = rankInUnits unitsInOne (unitsOfRank rank) unitsInOne := by
        rw [Nat.div_mul_cancel (Nat.dvd_of_mod_eq_zero h), Nat.one_mul]
    _ = rank := rankInUnits_unitsOfRank unitsInOne_pos rank

/-- A number that is whole has the magnitude of its absolute value, and its sign
unless it is zero. -/
theorem rank_of_toInt? {negative : Bool} {rank : Fin infinityRank} {i : Int}
    (h : (finite negative rank).toInt? = some i) :
    rankOfRatio i.natAbs 1 = rank ∧ (0 < i.natAbs → decide (i < 0) = negative) := by
  rw [toInt?_finite] at h
  split at h
  next hwhole =>
    have hrank := rankOfRatio_whole hwhole
    generalize unitsOfRank rank / unitsInOne = whole at h hrank
    cases negative with
    | true =>
      obtain rfl : -(whole : Int) = i := Option.some.inj h
      rw [Int.natAbs_neg]
      refine ⟨hrank, fun hp => decide_eq_true ?_⟩
      have hwhole : (whole : Int).natAbs = whole := Int.natAbs_natCast whole
      omega
    | false =>
      obtain rfl : (whole : Int) = i := Option.some.inj h
      exact ⟨hrank, fun _ => decide_eq_false (Int.not_lt.mpr (Int.natCast_nonneg whole))⟩
  next => cases h

end Binary64

namespace Decimal

/-! ## Decimals -/

/-- The rank of a decimal, rounded as the fraction that it is. -/
def ratioRank (d : Decimal) : Nat :=
  Binary64.rankOfRatio (d.significand * 10 ^ d.exponent.toNat) (10 ^ (-d.exponent).toNat)

/-- The rank of a decimal as a fraction is that for the units in one. -/
theorem ratioRank_eq (d : Decimal) :
    d.ratioRank = Binary64.rankInUnits Binary64.unitsInOne
      (d.significand * 10 ^ d.exponent.toNat) (10 ^ (-d.exponent).toNat) :=
  Binary64.rankOfRatio_eq _ _

/-- A decimal with so many places behind the point is a quotient. -/
theorem ratioRank_of_places (significand places : Nat) :
    ratioRank ⟨significand, -(places : Int)⟩ =
      Binary64.rankInUnits Binary64.unitsInOne significand (10 ^ places) := by
  have hnumerator : (-(places : Int)).toNat = 0 := by omega
  have hdenominator : (-(-(places : Int))).toNat = places := by omega
  rw [ratioRank_eq]
  simp only [hnumerator, hdenominator, Nat.pow_zero, Nat.mul_one]

/-- Zeros at the end of the digits can be counted in the exponent. -/
theorem ratioRank_shift (significand places : Nat) (exponent : Int) :
    ratioRank ⟨significand * 10 ^ places, exponent⟩ =
      ratioRank ⟨significand, exponent + places⟩ := by
  rw [ratioRank_eq, ratioRank_eq]
  refine Binary64.rankInUnits_congr _ (Nat.pow_pos (by decide)) (Nat.pow_pos (by decide)) ?_
  have hexponents : places + exponent.toNat + (-(exponent + places)).toNat =
      (exponent + places).toNat + (-exponent).toNat := by omega
  calc significand * 10 ^ places * 10 ^ exponent.toNat * 10 ^ (-(exponent + places)).toNat
      = significand * 10 ^ (places + exponent.toNat + (-(exponent + places)).toNat) := by
        rw [Nat.pow_add, Nat.pow_add, Nat.mul_assoc, Nat.mul_assoc, Nat.mul_assoc]
    _ = significand * 10 ^ (exponent + places).toNat * 10 ^ (-exponent).toNat := by
        rw [hexponents, Nat.pow_add, Nat.mul_assoc]

/-- A decimal that is too small by its count of bits is rounded to zero. -/
theorem rankInUnits_of_log2_le {unit places significand e : Nat} (hunit : unit = Nat.pow 2 places)
    (h : significand.log2 + (places + 2) ≤ 3 * (e + 1)) :
    Binary64.rankInUnits unit significand (10 ^ (e + 1)) = 0 := by
  rw [hunit]
  refine Binary64.rankInUnits_eq_zero ?_
  calc 2 * (significand * Nat.pow 2 places) = significand * 2 ^ (places + 1) := by
        rw [Nat.pow_eq, Nat.pow_succ, Nat.mul_left_comm, Nat.mul_comm 2]
    _ < 2 ^ (significand.log2 + 1) * 2 ^ (places + 1) :=
        Nat.mul_lt_mul_of_pos_right Nat.lt_log2_self (Nat.two_pow_pos (places + 1))
    _ = 2 ^ (significand.log2 + 1 + (places + 1)) := (Nat.pow_add 2 _ _).symm
    _ ≤ 2 ^ (3 * (e + 1)) := Nat.pow_le_pow_right (by decide) (by omega)
    _ = 8 ^ (e + 1) := Nat.pow_mul 2 3 (e + 1)
    _ ≤ 10 ^ (e + 1) := Nat.pow_le_pow_left (by decide) (e + 1)

/-- The short cuts change nothing for a decimal whose exponent is below 309. -/
theorem rank_eq_ratioRank {d : Decimal} (h : d.exponent < 309) : d.rank = d.ratioRank := by
  obtain ⟨significand, exponent⟩ := d
  cases exponent with
  | ofNat e =>
    have he : ¬ 309 ≤ e := by
      simp only [Int.ofNat_eq_natCast] at h
      omega
    have hratio : ratioRank ⟨significand, .ofNat e⟩ =
        Binary64.rankOfRatio (significand * Nat.pow 10 e) 1 := by
      simp [ratioRank]
    rw [hratio, rank]
    simp only [if_neg he]
    split
    next hz =>
      rw [hz, Nat.zero_mul]
      exact Binary64.rankOfRatio_zero.symm
    next => rfl
  | negSucc e =>
    have hratio : ratioRank ⟨significand, .negSucc e⟩ =
        Binary64.rankOfRatio significand (10 ^ (e + 1)) := by
      simp [ratioRank]
    rw [hratio, rank]
    simp only [Nat.pow_eq]
    split
    next hs =>
      rw [Binary64.rankOfRatio_eq]
      exact (rankInUnits_of_log2_le Binary64.unitsInOne_eq hs).symm
    next => rfl

/-- A decimal within the finite range is rounded as the fraction that it is. -/
theorem ratioRank_of_rank {d : Decimal} {rank : Nat} (h : d.rank = rank) (hpositive : 0 < rank)
    (hfinite : rank < Binary64.infinityRank) : d.ratioRank = rank := by
  by_cases he : d.exponent < 309
  · rw [← rank_eq_ratioRank he, h]
  · obtain ⟨significand, exponent⟩ := d
    cases exponent with
    | negSucc e => exact absurd (Int.negSucc_lt_zero e) (by simp only at he; omega)
    | ofNat e =>
      have hlarge : 309 ≤ e := by
        simp only [Int.ofNat_eq_natCast] at he
        omega
      simp only [Decimal.rank, if_pos hlarge] at h
      split at h
      · omega
      · omega

/-- Twenty-eight decimal digits hold 93 bits. -/
theorem two_pow_le_ten_pow (steps : Nat) : 2 ^ (93 * steps + 1) ≤ 10 ^ (28 * steps + 1) := by
  have hstep : 2 ^ 93 ≤ 10 ^ 28 := by decide
  calc 2 ^ (93 * steps + 1) = (2 ^ 93) ^ steps * 2 := by rw [← Nat.pow_mul, ← Nat.pow_succ]
    _ ≤ (10 ^ 28) ^ steps * 10 := Nat.mul_le_mul (Nat.pow_le_pow_left hstep steps) (by decide)
    _ = 10 ^ (28 * steps + 1) := by rw [← Nat.pow_mul, ← Nat.pow_succ]

/-- A decimal within the finite range has no exponent of 309 or more. -/
theorem exponent_lt_of_ratioRank {d : Decimal} (hs : 0 < d.significand)
    (h : d.ratioRank < Binary64.infinityRank) : d.exponent < 309 := by
  refine Decidable.byContradiction fun hlarge => ?_
  obtain ⟨steps, hsteps⟩ : ∃ steps, 11 = steps := ⟨11, rfl⟩
  have hdenominator : (-d.exponent).toNat = 0 := by omega
  have hvalue : 2 ^ (93 * steps + 1) ≤ d.significand * 10 ^ d.exponent.toNat :=
    calc 2 ^ (93 * steps + 1) ≤ 10 ^ (28 * steps + 1) := two_pow_le_ten_pow steps
      _ ≤ 10 ^ d.exponent.toNat := Nat.pow_le_pow_right (by decide) (by omega)
      _ ≤ d.significand * 10 ^ d.exponent.toNat := Nat.le_mul_of_pos_left _ hs
  have hne : d.significand * 10 ^ d.exponent.toNat ≠ 0 := by
    have := Nat.two_pow_pos (93 * steps + 1)
    omega
  have hbits := (Nat.le_log2 hne).mpr hvalue
  rw [ratioRank, hdenominator, Nat.pow_zero] at h
  have hbeyond := Binary64.infinityRank_le_rankOfRatio
    (Nat.le_trans (by omega : 1024 ≤ 93 * steps + 1) hbits)
  omega

end Decimal

end EmbeddedSql
