import EmbeddedSql.Text.Alphabetic
import EmbeddedSql.Text.Whitespace

/-!
# Classes of characters

How the classes of characters that the lexer and the splitter of scripts use lie
to each other: ASCII letters and digits are in their classes, and whitespace
meets none of them.
-/

namespace EmbeddedSql.Text

/-- The code points of whitespace, one by one. -/
def whitespaceCodes : List Nat :=
  whitespaceRanges.flatMap fun range => List.range' range.1 (range.2 + 1 - range.1)

/-- What holds of every code point of whitespace holds of every whitespace
character. -/
theorem of_isWhitespace {p : Char → Prop} (h : ∀ code ∈ whitespaceCodes, p (Char.ofNat code))
    {c : Char} (hc : isWhitespace c = true) : p c := by
  obtain ⟨range, hrange, hlow, hhigh⟩ := CharRange.exists_of_covers hc
  have hcode : c.toNat ∈ whitespaceCodes := by
    refine List.mem_flatMap.mpr ⟨range, hrange, ?_⟩
    rw [List.mem_range'_1]
    omega
  have hp := h c.toNat hcode
  rwa [Char.ofNat_toNat] at hp

/-- Whitespace is neither a letter nor a digit of any script. -/
theorem isAlphanumeric_of_isWhitespace {c : Char} (h : isWhitespace c = true) :
    isAlphanumeric c = false := by
  refine of_isWhitespace (p := fun c => isAlphanumeric c = false) ?_ h
  decide +kernel

/-- Whitespace is none of the characters that have a meaning of their own. -/
theorem ne_of_isWhitespace {c : Char} (h : isWhitespace c = true) :
    c ≠ '\'' ∧ c ≠ '"' ∧ c ≠ ';' ∧ c ≠ '-' ∧ c ≠ '_' ∧ c ≠ '.' ∧ c ≠ '=' ∧ c ≠ '$' := by
  refine ⟨?_, ?_, ?_, ?_, ?_, ?_, ?_, ?_⟩
  all_goals
    rintro rfl
    exact absurd h (by decide)

/-- Digits have the codes from 48 to 57. -/
theorem isDigit_bounds {c : Char} (h : c.isDigit = true) : 48 ≤ c.toNat ∧ c.toNat ≤ 57 := by
  simp only [Char.isDigit, Bool.and_eq_true, decide_eq_true_eq] at h
  exact h

/-- ASCII digits are digits. -/
theorem isNumeric_of_isDigit {c : Char} (h : c.isDigit = true) : isNumeric c = true := by
  have hb := isDigit_bounds h
  have hranges : numericRanges = (48, 57) :: numericRanges.tail := rfl
  rw [isNumeric, hranges, CharRange.covers, if_neg (by omega), if_pos hb.2]

/-- Digits are alphanumeric. -/
theorem isAlphanumeric_of_isDigit {c : Char} (h : c.isDigit = true) : isAlphanumeric c = true := by
  rw [isAlphanumeric, isNumeric_of_isDigit h, Bool.or_true]

/-- Letters begin behind the ASCII digits. -/
theorem not_isDigit_of_isAlphabetic {c : Char} (h : isAlphabetic c = true) :
    c.isDigit = false := by
  refine Bool.eq_false_iff.mpr fun hd => ?_
  have hb := isDigit_bounds hd
  have hranges : alphabeticBasic = (65, 90) :: alphabeticBasic.tail := rfl
  rw [isAlphabetic, if_pos (by omega), hranges, CharRange.covers, if_pos (by omega)] at h
  cases h

/-- ASCII letters are letters. -/
theorem isAlphabetic_of_isAlpha {c : Char} (h : c.isAlpha = true) : isAlphabetic c = true := by
  have hb : (65 ≤ c.toNat ∧ c.toNat ≤ 90) ∨ (97 ≤ c.toNat ∧ c.toNat ≤ 122) := by
    delta Char.isAlpha Char.isUpper Char.isLower at h
    simp only [Bool.or_eq_true, Bool.and_eq_true, decide_eq_true_eq] at h
    exact h
  have hranges : alphabeticBasic = (65, 90) :: (97, 122) :: alphabeticBasic.tail.tail := rfl
  rw [isAlphabetic, if_pos (by omega), hranges, CharRange.covers, if_neg (by omega)]
  split
  · rfl
  · rw [CharRange.covers, if_neg (by omega), if_pos (by omega)]

end EmbeddedSql.Text
