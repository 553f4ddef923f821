import EmbeddedSql.Json.Encoding
import EmbeddedSql.Json.Reader
import EmbeddedSql.Proofs.Number.ReadingBack

/-!
# Numbers written and read as JSON

A numeral is read back from its text, whatever follows that does not go on with
a number. A finite number is written as a whole number up to 2⁵³ and with its
shortest digits otherwise. Whole numbers of 64 bits are read as the number
nearest to them, which is the written one; that the shortest digits are read as
the written number is asked of the reading.
-/

namespace EmbeddedSql.Json

/-! ## Reading numerals -/

/-- The digits of a positive number do not begin with a zero. -/
theorem exists_toDigits {n : Nat} (h : 0 < n) :
    ∃ first rest, Nat.toDigits 10 n = first :: rest ∧ first ≠ '0' := by
  induction n using Nat.strongRecOn with
  | ind n ih =>
    by_cases hb : 10 ≤ n
    · obtain ⟨first, rest, hd, hne⟩ := ih (n / 10) (by omega) (by omega)
      rw [Nat.toDigits_of_base_le (by decide) hb, hd]
      exact ⟨first, _, rfl, hne⟩
    · rw [Nat.toDigits_of_lt_base (by omega)]
      refine ⟨_, [], rfl, fun hz => ?_⟩
      have hvalue := Decimal.natOfDigits_toDigits n
      rw [Nat.toDigits_of_lt_base (by omega), hz] at hvalue
      exact Nat.ne_of_lt h hvalue

namespace Numeral

/-- The digits behind the point are digits. -/
def WellFormed (n : Numeral) : Prop :=
  ∀ c ∈ n.fraction, c.isDigit = true

/-- The text of an exponent. -/
def exponentText : Option Int → List Char
  | none => []
  | some e => (if e < 0 then ['e', '-'] else ['e', '+']) ++ Nat.toDigits 10 e.natAbs

/-- The text of what stands behind the point, with the point. -/
def fractionText (ds : List Char) : List Char :=
  if ds.isEmpty then [] else '.' :: ds

/-- The text of a numeral is its sign, its whole digits, those behind the point and the
exponent. -/
theorem text_eq (n : Numeral) :
    n.text = (if n.negative then ['-'] else []) ++
      (Nat.toDigits 10 n.whole ++ (fractionText n.fraction ++ exponentText n.exponent)) := by
  obtain ⟨negative, whole, fraction, exponent⟩ := n
  cases exponent <;> simp [text, fractionText, exponentText]

end Numeral

namespace Reader

/-- No digit follows. -/
def EndsDigits (rest : Source) : Prop :=
  rest.head?.any isDigit = false

/-- What follows does not go on with a number. -/
structure EndsNumber (rest : Source) : Prop where
  /-- No digit follows. -/
  digits : EndsDigits rest
  /-- No point follows. -/
  point : rest.head? ≠ some (some '.')
  /-- No exponent follows. -/
  exponent : rest.head? ≠ some (some 'e') ∧ rest.head? ≠ some (some 'E')

/-- Where no digit follows no digits are taken. -/
theorem takeWhile_of_endsDigits {rest : Source} (h : EndsDigits rest) :
    rest.takeWhile isDigit = [] ∧ rest.dropWhile isDigit = rest := by
  cases rest with
  | nil => exact ⟨rfl, rfl⟩
  | cons c rest =>
    have hc : isDigit c = false := h
    exact ⟨List.takeWhile_cons_of_neg (by simp [hc]), List.dropWhile_cons_of_neg (by simp [hc])⟩

/-- Digits are read up to where no digit follows. -/
theorem digits_append {ds : List Char} (hd : ∀ c ∈ ds, c.isDigit = true) {rest : Source}
    (hr : EndsDigits rest) : digits (ds.map some ++ rest) = (ds, rest) := by
  have hall : ∀ c ∈ ds.map some, isDigit c = true := by
    intro c hc
    obtain ⟨d, hm, rfl⟩ := List.mem_map.mp hc
    exact hd d hm
  obtain ⟨htake, hdrop⟩ := takeWhile_of_endsDigits hr
  rw [digits, List.takeWhile_append_of_pos hall, List.dropWhile_append_of_pos hall, htake, hdrop,
    List.append_nil]
  simp

/-- The digits of a whole number are digits. -/
theorem isDigit_toDigits (n : Nat) : ∀ c ∈ Nat.toDigits 10 n, c.isDigit = true :=
  fun _ hc => Nat.isDigit_of_mem_toDigits (by decide) (by decide) hc

/-- The digits before the point are read back. -/
theorem whole_append (n : Nat) {rest : Source} (hr : EndsDigits rest) :
    whole ((Nat.toDigits 10 n).map some ++ rest) = some (n, rest) := by
  rcases Nat.eq_zero_or_pos n with rfl | hn
  · have hzero : (rest.head?.any isDigit) = false := hr
    rw [Nat.toDigits_zero, List.map_singleton, List.singleton_append, whole, hzero]
    rfl
  · obtain ⟨first, more, hd, hne⟩ := exists_toDigits hn
    have hdigits := digits_append (isDigit_toDigits n) hr
    have hvalue := Decimal.natOfDigits_toDigits n
    rw [hd] at hdigits hvalue ⊢
    unfold whole
    split
    next he => exact absurd (Option.some.inj (List.cons.inj he).1) hne
    next => rw [hdigits, ← hvalue]

/-- The digits behind the point are read back, if there are any. -/
theorem fraction_append {ds : List Char} (hd : ∀ c ∈ ds, c.isDigit = true) {rest : Source}
    (hr : EndsDigits rest) (hp : rest.head? ≠ some (some '.')) :
    fraction ((Numeral.fractionText ds).map some ++ rest) = some (ds, rest) := by
  cases ds with
  | nil =>
    change fraction rest = some ([], rest)
    unfold fraction
    split
    next => exact absurd rfl hp
    next => rfl
  | cons d ds =>
    have hdigits := digits_append hd hr
    change fraction (some '.' :: ((d :: ds).map some ++ rest)) = some (d :: ds, rest)
    rw [fraction, hdigits]

/-- An exponent is read back, if there is one. -/
theorem exponent_append (e : Option Int) {rest : Source} (hr : EndsNumber rest) :
    exponent ((Numeral.exponentText e).map some ++ rest) = some (e, rest) := by
  cases e with
  | none =>
    change exponent rest = some (none, rest)
    unfold exponent
    split
    next c more =>
      have hc : ¬ (c = 'e' ∨ c = 'E') := by
        rintro (rfl | rfl)
        · exact hr.exponent.1 rfl
        · exact hr.exponent.2 rfl
      rw [if_neg hc]
    next => rfl
  | some e =>
    have hdigits := digits_append (isDigit_toDigits e.natAbs) hr.digits
    have hne : Nat.toDigits 10 e.natAbs ≠ [] := Nat.toDigits_ne_nil
    have hvalue := Decimal.natOfDigits_toDigits e.natAbs
    by_cases hneg : e < 0
    · have he : -(e.natAbs : Int) = e := by omega
      simp only [Numeral.exponentText, if_pos hneg, List.cons_append, List.nil_append,
        List.map_cons, exponent, true_or, if_true, sign, hdigits, hvalue, he]
    · have he : (e.natAbs : Int) = e := by omega
      simp only [Numeral.exponentText, if_neg hneg, List.cons_append, List.nil_append,
        List.map_cons, exponent, true_or, if_true, sign, hdigits, hvalue, he,
        Bool.false_eq_true, if_false]

/-- No digit follows what stands in front of an exponent. -/
theorem endsDigits_exponentText (e : Option Int) {rest : Source} (hr : EndsNumber rest) :
    EndsDigits ((Numeral.exponentText e).map some ++ rest) := by
  cases e with
  | none => exact hr.digits
  | some e => by_cases h : e < 0 <;> simp [Numeral.exponentText, h, EndsDigits, isDigit]

/-- Nor does a point. -/
theorem head?_exponentText (e : Option Int) {rest : Source} (hr : EndsNumber rest) :
    ((Numeral.exponentText e).map some ++ rest).head? ≠ some (some '.') := by
  cases e with
  | none => exact hr.point
  | some e => by_cases h : e < 0 <;> simp [Numeral.exponentText, h]

/-- No digit follows the digits before the point. -/
theorem endsDigits_fractionText (ds : List Char) {rest : Source} (hr : EndsDigits rest) :
    EndsDigits ((Numeral.fractionText ds).map some ++ rest) := by
  cases ds with
  | nil => exact hr
  | cons d ds => rfl

/-- A numeral is read back from its text. -/
theorem number_append {n : Numeral} (h : n.WellFormed) {rest : Source} (hr : EndsNumber rest) :
    number (n.text.map some ++ rest) = some (n, rest) := by
  obtain ⟨negative, n, ds, e⟩ := n
  have hexponent := exponent_append e hr
  have hfraction := fraction_append h (endsDigits_exponentText e hr) (head?_exponentText e hr)
  have hwhole := whole_append n (endsDigits_fractionText ds (endsDigits_exponentText e hr))
  rw [Numeral.text_eq]
  simp only [List.map_append, List.append_assoc]
  cases negative with
  | true =>
    rw [if_pos rfl, List.map_singleton, List.singleton_append, number]
    simp only [hwhole, hfraction, hexponent, Option.bind_eq_bind, Option.bind_some]
  | false =>
    obtain ⟨first, more, hd⟩ := List.exists_cons_of_ne_nil (Nat.toDigits_ne_nil (n := n) (b := 10))
    have hfirst : first.isDigit = true := isDigit_toDigits n first (by simp [hd])
    have hne : first ≠ '-' := by
      rintro rfl
      exact absurd hfirst (by decide)
    rw [hd] at hwhole ⊢
    rw [if_neg Bool.false_ne_true, List.map_nil, List.nil_append, number]
    · simp only [hwhole, hfraction, hexponent, Option.bind_eq_bind, Option.bind_some]
    · intro rest he
      exact hne (Option.some.inj (List.cons.inj he).1)

end Reader

/-! ## The numeral of a number -/

namespace Numeral

/-- The decimal number that a numeral stands for, without its sign. -/
def decimal (n : Numeral) : Decimal :=
  ⟨Decimal.natOfDigits (Nat.toDigits 10 n.whole ++ n.fraction),
    n.exponent.getD 0 - n.fraction.length⟩

/-- The exact reading rounds this decimal once. -/
theorem exact_eq (n : Numeral) : n.exact = finite? (n.decimal.toBinary64 n.negative) :=
  rfl

/-- The significand of a numeral is its whole part shifted by the digits behind the point. -/
theorem significand_decimal (n : Numeral) :
    n.decimal.significand = n.whole * 10 ^ n.fraction.length + Decimal.natOfDigits n.fraction := by
  simp only [decimal, Decimal.natOfDigits_append, Decimal.natOfDigits_toDigits]

/-- The notation of a digit string stands for its number, up to zeros at the end. -/
theorem decimal_ofDigits (negative : Bool) {s : DigitString} (hne : s.digits ≠ []) :
    ∃ zeros : Nat, (ofDigits negative s).decimal.significand =
        Decimal.natOfDigits s.digits * 10 ^ zeros ∧
      (ofDigits negative s).decimal.exponent + zeros = s.point - s.digits.length := by
  obtain ⟨digits, point⟩ := s
  simp only at hne
  have hlength : 0 < digits.length := List.length_pos_iff.mpr hne
  rw [significand_decimal]
  simp only [ofDigits, decimal]
  split
  next hsmall =>
    refine ⟨0, ?_, ?_⟩
    · simp only [Nat.zero_mul, Nat.zero_add, Nat.pow_zero, Nat.mul_one,
        Decimal.natOfDigits_zeros_append]
    · simp only [Option.getD_none, List.length_append, List.length_replicate]
      omega
  next =>
    split
    next hmiddle =>
      by_cases hlong : point.toNat < digits.length
      -- The point is among the digits, so no zeros are needed.
      · have hpad : point.toNat - digits.length = 0 := by omega
        have hbehind : (digits.drop point.toNat).isEmpty = false :=
          List.isEmpty_eq_false_iff.mpr (List.drop_eq_nil_iff.not.mpr (by omega))
        refine ⟨0, ?_, ?_⟩
        · simp only [hpad, List.replicate_zero, List.append_nil, hbehind, Bool.false_eq_true,
            if_false, ← Decimal.natOfDigits_append, List.take_append_drop, Nat.pow_zero,
            Nat.mul_one]
        · simp only [hpad, List.replicate_zero, List.append_nil, hbehind, Bool.false_eq_true,
            if_false, List.length_drop, Option.getD_none]
          omega
      -- The zeros up to the point, and the one behind it, count as zeros at the end.
      · have hpadded : (digits ++ List.replicate (point.toNat - digits.length) '0').length =
            point.toNat := by
          rw [List.length_append, List.length_replicate]
          omega
        have hbehind : (digits ++ List.replicate (point.toNat - digits.length) '0').drop
            point.toNat = [] := List.drop_eq_nil_of_le (Nat.le_of_eq hpadded)
        have hbefore : (digits ++ List.replicate (point.toNat - digits.length) '0').take
            point.toNat = digits ++ List.replicate (point.toNat - digits.length) '0' :=
          List.take_of_length_le (Nat.le_of_eq hpadded)
        have hzero : Decimal.natOfDigits ['0'] = 0 := Decimal.natOfDigits_replicate_zero 1
        refine ⟨point.toNat - digits.length + 1, ?_, ?_⟩
        · simp only [hbehind, hbefore, List.isEmpty_nil, if_true, Decimal.natOfDigits_append,
            Decimal.natOfDigits_replicate_zero, hzero, List.length_replicate, Nat.add_zero,
            List.length_singleton, Nat.pow_succ, Nat.pow_zero, Nat.one_mul, Nat.mul_assoc]
        · simp only [hbehind, List.isEmpty_nil, if_true, Option.getD_none, List.length_singleton]
          omega
    next =>
      refine ⟨0, ?_, ?_⟩
      · simp only [← Decimal.natOfDigits_append, List.take_append_drop, Nat.pow_zero, Nat.mul_one]
      · simp only [Option.getD_some, List.length_drop]
        omega

/-- The digits behind the point are digits of the digit string, or zeros. -/
theorem wellFormed_ofDigits (negative : Bool) {s : DigitString}
    (hd : s.digits.all Char.isDigit = true) : (ofDigits negative s).WellFormed := by
  have hall := List.all_eq_true.mp hd
  have hzeros (count : Nat) := List.all_eq_true.mp (DigitString.all_isDigit_replicate count)
  intro c hc
  simp only [ofDigits] at hc
  split at hc
  · rcases List.mem_append.mp hc with hz | hs
    · exact hzeros _ c hz
    · exact hall c hs
  · split at hc
    · split at hc
      · exact hzeros 1 c hc
      · rcases List.mem_append.mp (List.mem_of_mem_drop hc) with hs | hz
        · exact hall c hs
        · exact hzeros _ c hz
    · exact hall c (List.mem_of_mem_drop hc)

/-- It is never the notation of a whole number. -/
theorem isInteger64_ofDigits (negative : Bool) {s : DigitString} (hne : s.digits ≠ []) :
    (ofDigits negative s).isInteger64 = false := by
  simp only [ofDigits]
  split
  · have hfraction : (List.replicate s.point.natAbs '0' ++ s.digits).isEmpty = false :=
      List.isEmpty_eq_false_iff.mpr fun he => hne (List.append_eq_nil_iff.mp he).2
    simp only [isInteger64, hfraction, Bool.false_and]
  · split
    · simp only [isInteger64]
      split
      · rfl
      next hbehind =>
        rw [Bool.not_eq_true] at hbehind
        rw [hbehind, Bool.false_and, Bool.false_and]
    · simp only [isInteger64, Option.isNone_some, Bool.and_false, Bool.false_and]

end Numeral

/-! ## Reading the written number -/

/-- The reading gives every number back from its shortest digits. -/
def NumberReading.ReadsBack (double : NumberReading) : Prop :=
  ∀ (negative : Bool) (rank : Fin Binary64.infinityRank), rank.val ≠ 0 →
    double (Numeral.ofDigits negative (Binary64.shortestDigits .toEven rank)) =
      some (.finite negative rank)

namespace Numeral

/-- The exact reading gives every number back. -/
theorem readsBack_exact : NumberReading.ReadsBack exact := by
  intro negative rank hne
  obtain ⟨hdigits, hnonempty, hvalue, hrank⟩ :=
    DigitString.ofDecimal_digits (Nat.pos_of_ne_zero hne)
      (Binary64.ratioRank_shortestDecimal .toEven (Nat.pos_of_ne_zero hne) rank.isLt)
  change exact (ofDigits negative (.ofDecimal _)) = _
  generalize DigitString.ofDecimal (Binary64.shortestDecimal .toEven rank) = s at *
  obtain ⟨zeros, hsignificand, hexponent⟩ := decimal_ofDigits negative hnonempty
  have hsmall : s.point - s.digits.length < 309 :=
    Decimal.exponent_lt_of_ratioRank hvalue (by rw [hrank]; exact rank.isLt)
  have hratio : (ofDigits negative s).decimal.ratioRank = rank := by
    have hshift := Decimal.ratioRank_shift (Decimal.natOfDigits s.digits) zeros
      (ofDigits negative s).decimal.exponent
    rw [← hsignificand, hexponent, hrank] at hshift
    exact hshift
  have hnegative : (ofDigits negative s).negative = negative := by
    simp only [ofDigits]
    split
    · rfl
    · split <;> rfl
  rw [exact_eq, hnegative, Decimal.toBinary64, Decimal.rank_eq_ratioRank (by omega), hratio,
    Binary64.ofRank, dif_pos rank.isLt]
  rfl

/-- A whole number of 64 bits is small. -/
theorem whole_of_isInteger64 {n : Numeral} (h : n.isInteger64 = true) : n.whole < 2 ^ 65 := by
  simp only [isInteger64, Bool.and_eq_true, Nat.pow_eq] at h
  have hbound := h.2
  split at hbound
  · simp only [Bool.and_eq_true, decide_eq_true_eq] at hbound
    omega
  · simp only [decide_eq_true_eq] at hbound
    omega

/-- What is read is finite. -/
theorem isFinite_of_withIntegers {double : NumberReading} {n : Numeral} {m : Binary64}
    (h : withIntegers double n = some m) : m.isFinite = true := by
  simp only [withIntegers] at h
  split at h
  next hinteger =>
    have hwhole := whole_of_isInteger64 hinteger
    have hbits : n.whole.log2 < 1023 := by
      rcases Nat.eq_zero_or_pos n.whole with hz | hpos
      · rw [hz, Nat.log2_zero]
        omega
      · have := (Nat.log2_lt hpos.ne').mpr hwhole
        omega
    have hrank := Binary64.rankOfRatio_lt_infinityRank hbits
    rw [← Option.some.inj h, Binary64.ofRatio, Binary64.ofRank, dif_pos hrank]
    rfl
  next =>
    obtain ⟨x, _, hx⟩ := Option.bind_eq_some_iff.mp h
    rw [finite?] at hx
    split at hx
    next hfinite => exact Option.some.inj hx ▸ hfinite
    next => cases hx

/-- Whole numbers up to 2⁵³ are among those of 64 bits. -/
theorem isInteger64_ofInt {i : Int} (h : i.natAbs ≤ Nat.pow 2 53) :
    (ofInt i).isInteger64 = true := by
  have hbound : i.natAbs ≤ 2 ^ 53 := h
  have hwhole : (ofInt i).isInteger64 = (if decide (i < 0) then
      decide (0 < i.natAbs) && decide (i.natAbs ≤ 2 ^ 63) else decide (i.natAbs < 2 ^ 64)) := rfl
  rw [hwhole]
  split
  next hn =>
    have := of_decide_eq_true hn
    rw [Bool.and_eq_true, decide_eq_true_eq, decide_eq_true_eq]
    omega
  next =>
    rw [decide_eq_true_eq]
    omega

/-- A number that is written as a whole number is read back, a zero without its sign. -/
theorem withIntegers_ofInt (double : NumberReading) {negative : Bool}
    {rank : Fin Binary64.infinityRank} {i : Int}
    (hi : (Binary64.finite negative rank).toInt? = some i) (hb : i.natAbs ≤ Nat.pow 2 53) :
    ∃ m, withIntegers double (ofInt i) = some m ∧
      (Binary64.finite negative rank).numEq m = true := by
  obtain ⟨hrank, hsign⟩ := Binary64.rank_of_toInt? hi
  have hread : withIntegers double (ofInt i) = some (.finite (decide (i < 0)) rank) := by
    rw [withIntegers, if_pos (isInteger64_ofInt hb), ofInt, Binary64.ofRatio, hrank,
      Binary64.ofRank, dif_pos rank.isLt]
  refine ⟨_, hread, ?_⟩
  rcases Nat.eq_zero_or_pos i.natAbs with hz | hp
  · rw [hz, Binary64.rankOfRatio_zero] at hrank
    simp only [Binary64.numEq, Binary64.compareBy, Binary64.place?, ← hrank, Int.natCast_zero,
      Int.neg_zero, ite_self, decide_true]
  · rw [hsign hp]
    exact Binary64.numEq_self Binary64.noConfusion

/-- A finite number is written as a whole number, or with its shortest digits if it
is not zero. -/
theorem ofNumber?_cases (negative : Bool) (rank : Fin Binary64.infinityRank) :
    (∃ i, (Binary64.finite negative rank).toInt? = some i ∧ i.natAbs ≤ Nat.pow 2 53 ∧
      ofNumber? (.finite negative rank) = some (ofInt i)) ∨
    (0 < rank.val ∧ ofNumber? (.finite negative rank) =
      some (ofDigits negative (Binary64.shortestDigits .toEven rank))) := by
  have hzero (hz : rank.val = 0) : (Binary64.finite negative rank).toInt? = some 0 := by
    have hunits : Binary64.unitsOfRank 0 = 0 := rfl
    rw [Binary64.toInt?_finite, hz, hunits, Nat.zero_mod, if_pos rfl, Nat.zero_div]
    cases negative <;> rfl
  simp only [ofNumber?]
  cases hi : (Binary64.finite negative rank).toInt? with
  | none =>
    exact .inr ⟨Nat.pos_of_ne_zero fun hz => absurd (hi.symm.trans (hzero hz)) nofun, rfl⟩
  | some i =>
    simp only
    by_cases hb : i.natAbs ≤ Nat.pow 2 53
    · exact .inl ⟨i, rfl, hb, if_pos hb⟩
    · refine .inr ⟨Nat.pos_of_ne_zero fun hz => ?_, if_neg hb⟩
      obtain rfl : i = 0 := Option.some.inj (hi.symm.trans (hzero hz))
      exact hb (Nat.zero_le _)

/-- The shortest digits of a magnitude that is not zero are digits, and there are some. -/
theorem shortestDigits_spec (tie : TieRule) {rank : Fin Binary64.infinityRank}
    (hpositive : 0 < rank.val) :
    (Binary64.shortestDigits tie rank).digits.all Char.isDigit = true ∧
      (Binary64.shortestDigits tie rank).digits ≠ [] := by
  obtain ⟨hdigits, hne, _⟩ := DigitString.ofDecimal_digits hpositive
    (Binary64.ratioRank_shortestDecimal tie hpositive rank.isLt)
  exact ⟨hdigits, hne⟩

/-- The numeral of a number is well-formed. -/
theorem wellFormed_ofNumber? {n : Binary64} {numeral : Numeral}
    (h : ofNumber? n = some numeral) : numeral.WellFormed := by
  cases n with
  | infinity negative => cases h
  | nan => cases h
  | finite negative rank =>
    rcases ofNumber?_cases negative rank with ⟨i, _, _, hn⟩ | ⟨hpositive, hn⟩
    · obtain rfl := Option.some.inj (hn.symm.trans h)
      exact List.forall_mem_nil _
    · obtain rfl := Option.some.inj (hn.symm.trans h)
      exact wellFormed_ofDigits negative (shortestDigits_spec .toEven hpositive).1

/-- Every finite number has a numeral, and what that is read as equals it. -/
theorem exists_ofNumber? {double : NumberReading} (h : double.ReadsBack) {n : Binary64}
    (hn : n.isFinite = true) :
    ∃ numeral m, ofNumber? n = some numeral ∧ withIntegers double numeral = some m ∧
      n.numEq m = true := by
  cases n with
  | infinity negative => cases hn
  | nan => cases hn
  | finite negative rank =>
    rcases ofNumber?_cases negative rank with ⟨i, hi, hb, hn⟩ | ⟨hpositive, hn⟩
    · obtain ⟨m, hread, heq⟩ := withIntegers_ofInt double hi hb
      exact ⟨_, m, hn, hread, heq⟩
    · refine ⟨_, _, hn, ?_, Binary64.numEq_self nofun⟩
      have hinteger : ¬ (ofDigits negative (Binary64.shortestDigits .toEven rank)).isInteger64 =
          true := ne_true_of_eq_false
        (isInteger64_ofDigits negative (shortestDigits_spec .toEven hpositive).2)
      rw [withIntegers, if_neg hinteger, h negative rank hpositive.ne']
      rfl

end Numeral

end EmbeddedSql.Json
