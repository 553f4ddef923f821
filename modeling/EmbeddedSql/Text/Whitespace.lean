import EmbeddedSql.Text.CharRange

/-!
# Whitespace

The twenty-five characters with the Unicode property White_Space, and the
cutting of whitespace from the ends of a text.
-/

namespace EmbeddedSql.Text

/-- The ranges of the Unicode property White_Space. -/
def whitespaceRanges : List (Nat × Nat) :=
  [(0x09, 0x0D), (0x20, 0x20), (0x85, 0x85), (0xA0, 0xA0), (0x1680, 0x1680),
   (0x2000, 0x200A), (0x2028, 0x2029), (0x202F, 0x202F), (0x205F, 0x205F), (0x3000, 0x3000)]

/-- Whether a character has the property White_Space. -/
def isWhitespace (c : Char) : Bool :=
  CharRange.covers whitespaceRanges c.toNat

/-- The text without the whitespace at its front. -/
def trimStart (text : List Char) : List Char :=
  text.dropWhile isWhitespace

/-- The text without the whitespace at its end. -/
def trimEnd (text : List Char) : List Char :=
  (text.reverse.dropWhile isWhitespace).reverse

/-- The text without the whitespace at either end. -/
def trim (text : List Char) : List Char :=
  trimEnd (trimStart text)

/-- The maximal runs of characters that are no whitespace, in order. -/
def words : List Char → List (List Char)
  | [] => []
  | c :: rest =>
    if isWhitespace c then words rest
    else match rest with
      | [] => [[c]]
      | d :: _ =>
        if isWhitespace d then [c] :: words rest
        else match words rest with
          | [] => [[c]]
          | word :: others => (c :: word) :: others

/-- Core's own whitespace characters all count as whitespace. -/
theorem isWhitespace_of_core {c : Char} (h : c.isWhitespace = true) : isWhitespace c = true := by
  simp only [Char.isWhitespace, Bool.or_eq_true, decide_eq_true_eq] at h
  rcases h with ((rfl | rfl) | rfl) | rfl <;> decide

end EmbeddedSql.Text
