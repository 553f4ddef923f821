import EmbeddedSql.Number.Shortest
import EmbeddedSql.Proofs.Number.Rounding
import Mathlib.Data.List.TakeWhile

/-!
# The text of a number reads back

The shortest decimal of a finite magnitude has that magnitude's rank: each
candidate is tested, and the whole expansion is exact. Writing the decimal with
a point in the right place and reading it again changes the digits and the
exponent but not the value, so every finite number is read back from its text.
-/

namespace EmbeddedSql

namespace Decimal

/-! ## Digits -/

/-- Digits have the value that the library gives them. -/
theorem natOfDigits_eq (digits : List Char) :
    natOfDigits digits = Nat.ofDigitChars 10 digits 0 := by
  rw [Nat.ofDigitChars_eq_foldl]
  simp only [natOfDigits, digitValue, Nat.mul_comm]
  rfl

/-- Digits in front of others count for as many tens as there are digits behind them. -/
theorem natOfDigits_append (front back : List Char) :
    natOfDigits (front ++ back) = natOfDigits front * 10 ^ back.length + natOfDigits back := by
  rw [natOfDigits_eq, natOfDigits_eq, natOfDigits_eq, Nat.ofDigitChars_append,
    Nat.ofDigitChars_eq_ofDigitChars_zero, Nat.mul_comm]

/-- Zeros have the value zero. -/
theorem natOfDigits_replicate_zero (count : Nat) :
    natOfDigits (List.replicate count '0') = 0 := by
  rw [natOfDigits_eq, Nat.ofDigitChars_replicate_zero, Nat.mul_zero]

/-- Zeros in front change nothing about the value. -/
theorem natOfDigits_zeros_append (count : Nat) (digits : List Char) :
    natOfDigits (List.replicate count '0' ++ digits) = natOfDigits digits := by
  rw [natOfDigits_append, natOfDigits_replicate_zero, Nat.zero_mul, Nat.zero_add]

/-- The digits of a whole number have its value. -/
theorem natOfDigits_toDigits (n : Nat) : natOfDigits (Nat.toDigits 10 n) = n := by
  rw [natOfDigits_eq, Nat.ofDigitChars_ten_toDigits]

/-- Digits with a point behind the last of them, or without a point. -/
theorem read?_whole {whole : List Char} (hd : whole.all Char.isDigit = true) (hne : whole ≠ []) :
    read? whole = some ⟨natOfDigits whole, 0⟩ := by
  have hall : ∀ c ∈ whole, c.isDigit = true := List.all_eq_true.mp hd
  have htake : whole.takeWhile Char.isDigit = whole := List.takeWhile_eq_self_iff.mpr hall
  have hdrop : whole.dropWhile Char.isDigit = [] := List.dropWhile_eq_nil_iff.mpr hall
  have hempty : whole.isEmpty = false := List.isEmpty_eq_false_iff.mpr hne
  simp only [read?, htake, hdrop, hempty, Bool.false_and, Bool.false_eq_true, if_false,
    readExponent?, Option.map_some, List.append_nil, List.length_nil, Int.natCast_zero,
    Int.sub_zero]

/-- Digits with a point among them. -/
theorem read?_point {whole fraction : List Char} (hw : whole.all Char.isDigit = true)
    (hf : fraction.all Char.isDigit = true) (hne : whole ≠ []) :
    read? (whole ++ '.' :: fraction) =
      some ⟨natOfDigits (whole ++ fraction), -(fraction.length : Int)⟩ := by
  have hwhole : ∀ c ∈ whole, c.isDigit = true := List.all_eq_true.mp hw
  have hfraction : ∀ c ∈ fraction, c.isDigit = true := List.all_eq_true.mp hf
  have hpoint : ('.' : Char).isDigit = false := by decide
  have htake : (whole ++ '.' :: fraction).takeWhile Char.isDigit = whole := by
    rw [List.takeWhile_append_of_pos hwhole, List.takeWhile_cons_of_neg (by simp [hpoint]),
      List.append_nil]
  have hdrop : (whole ++ '.' :: fraction).dropWhile Char.isDigit = '.' :: fraction := by
    rw [List.dropWhile_append_of_pos hwhole, List.dropWhile_cons_of_neg (by simp [hpoint])]
  have hftake : fraction.takeWhile Char.isDigit = fraction :=
    List.takeWhile_eq_self_iff.mpr hfraction
  have hfdrop : fraction.dropWhile Char.isDigit = [] := List.dropWhile_eq_nil_iff.mpr hfraction
  have hempty : whole.isEmpty = false := List.isEmpty_eq_false_iff.mpr hne
  simp only [read?, htake, hdrop, hftake, hfdrop, hempty, Bool.false_and, Bool.false_eq_true,
    if_false, readExponent?, Option.map_some, Int.zero_sub]

/-- A decimal that is rounded to more than zero has digits. -/
theorem significand_pos_of_ratioRank {d : Decimal} (h : 0 < d.ratioRank) : 0 < d.significand := by
  rcases Nat.eq_zero_or_pos d.significand with hz | hp
  · have hzero : d.ratioRank = 0 := by
      rw [ratioRank_eq, hz]
      refine Binary64.rankInUnits_eq_zero ?_
      rw [Nat.zero_mul, Nat.zero_mul, Nat.mul_zero]
      exact Nat.pow_pos (by decide)
    omega
  · exact hp

end Decimal

namespace DigitString

/-! ## Writing a decimal -/

/-- Digits without zeros at their end, and the zeros that there were. -/
theorem exists_zeros (digits : List Char) :
    ∃ zeros, digits =
      (digits.reverse.dropWhile (· == '0')).reverse ++ List.replicate zeros '0' := by
  refine ⟨(digits.reverse.takeWhile (· == '0')).length, ?_⟩
  have hzeros : (digits.reverse.takeWhile (· == '0')).reverse =
      List.replicate (digits.reverse.takeWhile (· == '0')).length '0' := by
    refine List.eq_replicate_iff.mpr ⟨List.length_reverse, fun c hc => ?_⟩
    have hzero := List.mem_takeWhile_imp (List.mem_reverse.mp hc)
    exact eq_of_beq hzero
  rw [← hzeros, ← List.reverse_append, List.takeWhile_append_dropWhile, List.reverse_reverse]

/-- What a positive decimal is written as: its digits without the zeros at
their end, which are counted in the exponent. -/
theorem ofDecimal_spec {d : Decimal} (hd : 0 < d.significand) :
    ∃ zeros : Nat, (ofDecimal d).digits.all Char.isDigit = true ∧ (ofDecimal d).digits ≠ [] ∧
      d.significand = Decimal.natOfDigits (ofDecimal d).digits * 10 ^ zeros ∧
      (ofDecimal d).point = (ofDecimal d).digits.length + (d.exponent + zeros) := by
  obtain ⟨zeros, hsplit⟩ := exists_zeros (Nat.toDigits 10 d.significand)
  have hdigits : Nat.toDigits 10 d.significand =
      (ofDecimal d).digits ++ List.replicate zeros '0' := hsplit
  have hvalue : d.significand = Decimal.natOfDigits (ofDecimal d).digits * 10 ^ zeros := by
    have hread := congrArg Decimal.natOfDigits hdigits
    rwa [Decimal.natOfDigits_toDigits, Decimal.natOfDigits_append, List.length_replicate,
      Decimal.natOfDigits_replicate_zero, Nat.add_zero] at hread
  refine ⟨zeros, ?_, ?_, hvalue, ?_⟩
  · refine List.all_eq_true.mpr fun c hc => ?_
    have hm : c ∈ Nat.toDigits 10 d.significand := by
      rw [hdigits]
      exact List.mem_append_left _ hc
    exact Nat.isDigit_of_mem_toDigits (by decide) (by decide) hm
  · intro hnone
    rw [hnone] at hvalue
    have hzero : d.significand = 0 := hvalue.trans (Nat.zero_mul _)
    omega
  · have hpoint : (ofDecimal d).point =
        ((Nat.toDigits 10 d.significand).length : Int) + d.exponent := rfl
    have hlength := congrArg List.length hdigits
    rw [List.length_append, List.length_replicate] at hlength
    omega

/-- The digits of a positive decimal are digits, and their number is rounded to the
same magnitude. -/
theorem ofDecimal_digits {d : Decimal} {rank : Nat} (hpositive : 0 < rank)
    (hrank : d.ratioRank = rank) :
    (ofDecimal d).digits.all Char.isDigit = true ∧
      (ofDecimal d).digits ≠ [] ∧
      0 < Decimal.natOfDigits (ofDecimal d).digits ∧
      Decimal.ratioRank ⟨Decimal.natOfDigits (ofDecimal d).digits,
        (ofDecimal d).point - (ofDecimal d).digits.length⟩ = rank := by
  have hsignificand := Decimal.significand_pos_of_ratioRank (hrank.symm ▸ hpositive)
  obtain ⟨zeros, hdigits, hne, hvalue, hpoint⟩ := ofDecimal_spec hsignificand
  refine ⟨hdigits, hne, ?_, ?_⟩
  · refine Nat.pos_of_ne_zero fun hz => ?_
    rw [hvalue, hz, Nat.zero_mul] at hsignificand
    exact Nat.lt_irrefl 0 hsignificand
  · have hexponent : (ofDecimal d).point - (ofDecimal d).digits.length =
        d.exponent + zeros := by omega
    rw [hexponent, ← Decimal.ratioRank_shift, ← hvalue]
    exact hrank

/-- What a digit string is written as: digits and at most one point among them,
with the value that the string has. -/
inductive Positional (s : DigitString) : List Char → Prop where
  /-- A whole number, perhaps with zeros at its end. -/
  | whole {digits : List Char} (zeros : Nat) (isDigit : digits.all Char.isDigit = true)
    (nonempty : digits ≠ [])
    (value : Decimal.natOfDigits digits = Decimal.natOfDigits s.digits * 10 ^ zeros)
    (point : s.point = s.digits.length + zeros) : Positional s digits
  /-- A number with a point. -/
  | fraction {whole fraction : List Char} (isDigit : whole.all Char.isDigit = true)
    (fractionDigit : fraction.all Char.isDigit = true) (nonempty : whole ≠ [])
    (value : Decimal.natOfDigits (whole ++ fraction) = Decimal.natOfDigits s.digits)
    (point : s.point = s.digits.length - fraction.length) :
    Positional s (whole ++ '.' :: fraction)

/-- Zeros are digits. -/
theorem all_isDigit_replicate (count : Nat) :
    (List.replicate count '0').all Char.isDigit = true := by
  refine List.all_eq_true.mpr fun c hc => ?_
  rw [List.eq_of_mem_replicate hc]
  decide

/-- The text of a digit string is written in this way. -/
theorem positional_spec {s : DigitString} (hd : s.digits.all Char.isDigit = true)
    (hne : s.digits ≠ []) : Positional s s.positional := by
  have hzero : ['0'].all Char.isDigit = true := by decide
  obtain ⟨digits, point⟩ := s
  simp only at hd hne
  -- The point stands in front of all digits, behind all of them, or among them.
  cases point with
  | negSucc n =>
    have htext : positional ⟨digits, .negSucc n⟩ =
        ['0'] ++ '.' :: (List.replicate (n + 1) '0' ++ digits) := by
      simp [positional]
    rw [htext]
    refine .fraction hzero ?_ (List.cons_ne_nil _ _) ?_ ?_
    · rw [List.all_append, all_isDigit_replicate, hd]
      rfl
    · exact Decimal.natOfDigits_zeros_append (n + 2) digits
    · simp only [List.length_append, List.length_replicate]
      omega
  | ofNat n =>
    cases n with
    | zero =>
      have htext : positional ⟨digits, .ofNat 0⟩ = ['0'] ++ '.' :: digits := rfl
      rw [htext]
      refine .fraction hzero hd (List.cons_ne_nil _ _) ?_ ?_
      · exact Decimal.natOfDigits_zeros_append 1 digits
      · simp only [Int.ofNat_eq_natCast]
        omega
    | succ n =>
      by_cases hl : digits.length ≤ n + 1
      · have htext : positional ⟨digits, .ofNat (n + 1)⟩ =
            digits ++ List.replicate (n + 1 - digits.length) '0' := by
          rw [positional.eq_def]
          simp only [if_pos hl]
        rw [htext]
        refine .whole (n + 1 - digits.length) ?_ ?_ ?_ ?_
        · rw [List.all_append, all_isDigit_replicate, hd]
          rfl
        · exact fun he => hne (List.append_eq_nil_iff.mp he).1
        · rw [Decimal.natOfDigits_append, Decimal.natOfDigits_replicate_zero,
            List.length_replicate, Nat.add_zero]
        · simp only [Int.ofNat_eq_natCast]
          omega
      · have hall : ∀ c ∈ digits, c.isDigit = true := List.all_eq_true.mp hd
        have htext : positional ⟨digits, .ofNat (n + 1)⟩ =
            digits.take (n + 1) ++ '.' :: digits.drop (n + 1) := by
          rw [positional.eq_def]
          simp only [if_neg hl, List.append_assoc, List.singleton_append]
        rw [htext]
        refine .fraction ?_ ?_ ?_ ?_ ?_
        · exact List.all_eq_true.mpr fun c hc => hall c (List.mem_of_mem_take hc)
        · exact List.all_eq_true.mpr fun c hc => hall c (List.mem_of_mem_drop hc)
        · intro he
          exact hne ((List.take_eq_nil_iff.mp he).resolve_left (Nat.succ_ne_zero n))
        · rw [List.take_append_drop]
        · simp only [Int.ofNat_eq_natCast, List.length_drop]
          omega

/-- A text that a digit string is written as is read as a decimal of the same
value. -/
theorem Positional.exists_read? {s : DigitString} {text : List Char} (h : Positional s text) :
    ∃ d, Decimal.read? text = some d ∧ d.exponent ≤ 0 ∧
      d.ratioRank =
        Decimal.ratioRank ⟨Decimal.natOfDigits s.digits, s.point - s.digits.length⟩ := by
  cases h with
  | whole zeros isDigit nonempty value point =>
    refine ⟨_, Decimal.read?_whole isDigit nonempty, Int.le_refl 0, ?_⟩
    have hexponent : s.point - s.digits.length = 0 + (zeros : Int) := by omega
    rw [value, Decimal.ratioRank_shift, hexponent]
  | @fraction whole fraction isDigit fractionDigit nonempty value point =>
    refine ⟨_, Decimal.read?_point isDigit fractionDigit nonempty, ?_, ?_⟩
    · simp only
      omega
    · have hexponent : s.point - s.digits.length = -(fraction.length : Int) := by omega
      rw [value, hexponent]

/-- A decimal that is rounded to more than zero is written with digits and read
as a decimal of its rank. -/
theorem exists_read?_ofDecimal {d : Decimal} {rank : Nat} (hpositive : 0 < rank)
    (hrank : d.ratioRank = rank) :
    Positional (ofDecimal d) (ofDecimal d).positional ∧
      ∃ e, Decimal.read? (ofDecimal d).positional = some e ∧ e.rank = rank := by
  have hsignificand := Decimal.significand_pos_of_ratioRank (hrank.symm ▸ hpositive)
  obtain ⟨zeros, hdigits, hnonempty, hvalue, hpoint⟩ := ofDecimal_spec hsignificand
  have hwritten := positional_spec hdigits hnonempty
  obtain ⟨e, hread, hexponent, hratio⟩ := hwritten.exists_read?
  refine ⟨hwritten, e, hread, ?_⟩
  have hshift : (ofDecimal d).point - (ofDecimal d).digits.length = d.exponent + zeros := by omega
  have hsame : (⟨Decimal.natOfDigits (ofDecimal d).digits * 10 ^ zeros, d.exponent⟩ : Decimal) =
      d := by rw [← hvalue]
  rw [Decimal.rank_eq_ratioRank (by omega), hratio, hshift, ← Decimal.ratioRank_shift, hsame, hrank]

end DigitString

namespace Binary64

/-! ## Magnitudes -/

/-- The whole expansion of a magnitude, with a name for the number of its places. -/
theorem expansionOfRank_eq {places : Nat} (h : 1074 = places) (rank : Nat) :
    expansionOfRank rank = unitsOfRank rank * Nat.pow 5 places := by
  rw [expansionOfRank, h]

/-- The whole expansion of a magnitude is exact. -/
theorem ratioRank_expansionOfRank (rank : Nat) :
    Decimal.ratioRank ⟨expansionOfRank rank, -1074⟩ = rank := by
  -- The number of places is kept as a variable: its powers are never computed.
  obtain ⟨places, hplaces⟩ : ∃ places, 1074 = places := ⟨1074, rfl⟩
  have hexponent : (-1074 : Int) = -(places : Int) := by omega
  have hunit : unitsInOne = Nat.pow 2 places := by rw [unitsInOne_eq, hplaces]
  rw [expansionOfRank_eq hplaces, hexponent, Decimal.ratioRank_of_places]
  exact rankInUnits_expansion hunit rank

/-- What the search for the shortest decimal finds has the rank of the magnitude. -/
theorem ratioRank_shortestFrom (tie : TieRule) {rank : Nat} (hpositive : 0 < rank)
    (hfinite : rank < infinityRank) (tries places : Nat) :
    (shortestFrom tie rank tries places).ratioRank = rank := by
  unfold shortestFrom
  cases hs : (List.range tries).findSome? fun finer => candidate? tie rank (places - 1 - finer) with
  | none => exact ratioRank_expansionOfRank rank
  | some d =>
    obtain ⟨finer, _, hc⟩ := List.exists_of_findSome?_eq_some hs
    exact Decimal.ratioRank_of_rank (rank_of_candidate? hc) hpositive hfinite

/-- The shortest decimal of a magnitude is rounded to it. -/
theorem ratioRank_shortestDecimal (tie : TieRule) {rank : Nat} (hpositive : 0 < rank)
    (hfinite : rank < infinityRank) : (shortestDecimal tie rank).ratioRank = rank :=
  ratioRank_shortestFrom tie hpositive hfinite 17 _

/-- The text of a magnitude without its sign. -/
def magnitudeText (rank : Nat) : List Char :=
  if rank = 0 then ['0'] else (shortestDigits .up rank).positional

/-- The text of a finite number is that of its magnitude behind its sign. -/
theorem text_finite (negative : Bool) (rank : Fin infinityRank) :
    text (.finite negative rank) =
      if negative then '-' :: magnitudeText rank else magnitudeText rank := rfl

/-- The text of a magnitude that is not zero is written as its shortest decimal,
and reads back. -/
theorem magnitudeText_of_pos {rank : Nat} (hpositive : 0 < rank) (hfinite : rank < infinityRank) :
    ∃ s : DigitString, s.Positional (magnitudeText rank) ∧
      ∃ d, Decimal.read? (magnitudeText rank) = some d ∧ d.rank = rank := by
  have hrank := ratioRank_shortestFrom .up hpositive hfinite 17 (digitCount (expansionOfRank rank))
  have htext : magnitudeText rank = (shortestDigits .up rank).positional := by
    rw [magnitudeText, if_neg (by omega)]
  rw [htext]
  exact ⟨_, DigitString.exists_read?_ofDecimal hpositive hrank⟩

/-- The text of a magnitude is read as a decimal with the magnitude's rank. -/
theorem exists_read?_magnitudeText {rank : Nat} (hfinite : rank < infinityRank) :
    ∃ d, Decimal.read? (magnitudeText rank) = some d ∧ d.rank = rank := by
  rcases Nat.eq_zero_or_pos rank with hz | hpositive
  · rw [hz]
    exact ⟨⟨0, 0⟩, by decide, by decide⟩
  · obtain ⟨_, _, hread⟩ := magnitudeText_of_pos hpositive hfinite
    exact hread

/-- A text of digits with at most one point begins with a digit. -/
theorem exists_of_positional {s : DigitString} {text : List Char} (h : s.Positional text) :
    ∃ first rest, text = first :: rest ∧ first.isDigit = true ∧
      ∀ c ∈ rest, c.isDigit = true ∨ c = '.' := by
  cases h with
  | whole zeros isDigit nonempty value point =>
    obtain ⟨first, rest, rfl⟩ := List.exists_cons_of_ne_nil nonempty
    have hall := List.all_eq_true.mp isDigit
    exact ⟨first, rest, rfl, hall first List.mem_cons_self,
      fun c hc => .inl (hall c (List.mem_cons_of_mem _ hc))⟩
  | fraction isDigit fractionDigit nonempty value point =>
    obtain ⟨first, rest, rfl⟩ := List.exists_cons_of_ne_nil nonempty
    have hall := List.all_eq_true.mp isDigit
    have hfraction := List.all_eq_true.mp fractionDigit
    refine ⟨first, _, rfl, hall first List.mem_cons_self, fun c hc => ?_⟩
    rcases List.mem_append.mp hc with hc | hc
    · exact .inl (hall c (List.mem_cons_of_mem _ hc))
    · rcases List.mem_cons.mp hc with rfl | hc
      · exact .inr rfl
      · exact .inl (hfraction c hc)

/-- The text of a magnitude begins with a digit and has digits and points only. -/
theorem exists_magnitudeText {rank : Nat} (hfinite : rank < infinityRank) :
    ∃ first rest, magnitudeText rank = first :: rest ∧ first.isDigit = true ∧
      ∀ c ∈ rest, c.isDigit = true ∨ c = '.' := by
  rcases Nat.eq_zero_or_pos rank with hz | hpositive
  · rw [hz]
    exact ⟨'0', [], rfl, by decide, fun c hc => nomatch hc⟩
  · obtain ⟨_, hwritten, _⟩ := magnitudeText_of_pos hpositive hfinite
    exact exists_of_positional hwritten

/-- A text that begins with a digit has no sign. -/
theorem readSign_of_isDigit {first : Char} (h : first.isDigit = true) (rest : List Char) :
    Decimal.readSign (first :: rest) = (false, first :: rest) := by
  have hminus : first ≠ '-' := by
    rintro rfl
    exact absurd h (by decide)
  have hplus : first ≠ '+' := by
    rintro rfl
    exact absurd h (by decide)
  unfold Decimal.readSign
  split
  next he => exact absurd (List.cons.inj he).1 hminus
  next he => exact absurd (List.cons.inj he).1 hplus
  next => rfl

/-- The sign of a number and the text of its magnitude. -/
theorem readSign_text (negative : Bool) (rank : Fin infinityRank) :
    Decimal.readSign (text (.finite negative rank)) = (negative, magnitudeText rank) := by
  obtain ⟨first, rest, htext, hdigit, _⟩ := exists_magnitudeText rank.isLt
  rw [text_finite, htext]
  cases negative with
  | true => rfl
  | false => exact readSign_of_isDigit hdigit rest

/-- A finite number is read back from its text. -/
theorem ofText?_text {n : Binary64} (h : n.isFinite = true) : ofText? n.text = some n := by
  cases n with
  | infinity negative => cases h
  | nan => cases h
  | finite negative rank =>
    obtain ⟨d, hread, hrank⟩ := exists_read?_magnitudeText rank.isLt
    have hnumber : d.toBinary64 negative = .finite negative rank := by
      rw [Decimal.toBinary64, hrank, ofRank, dif_pos rank.isLt]
    simp only [ofText?, readSign_text, hread, hnumber]

/-- The text of a finite number is a digit, or a minus sign and a digit, with
digits and points behind it. -/
theorem exists_text {n : Binary64} (h : n.isFinite = true) :
    ∃ first rest, first.isDigit = true ∧ (∀ c ∈ rest, c.isDigit = true ∨ c = '.') ∧
      (n.text = first :: rest ∨ n.text = '-' :: first :: rest) := by
  cases n with
  | infinity negative => cases h
  | nan => cases h
  | finite negative rank =>
    obtain ⟨first, rest, htext, hdigit, hrest⟩ := exists_magnitudeText rank.isLt
    refine ⟨first, rest, hdigit, hrest, ?_⟩
    rw [text_finite, htext]
    cases negative with
    | true => exact .inr rfl
    | false => exact .inl rfl

end Binary64

end EmbeddedSql
