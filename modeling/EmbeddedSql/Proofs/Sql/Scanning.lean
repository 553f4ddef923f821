import EmbeddedSql.Sql.Lexer
import Mathlib.Data.Nat.Init

/-!
# Reading a text without its positions

The tokens of a text do not depend on where they stand. A scan skips whitespace,
lets a reader take what begins at the next character, and goes on behind it; it
comes to nothing as soon as the reader finds nothing. With the lexer's own way
of reading one token, a scan comes to the tokens that the lexer finds.
-/

namespace EmbeddedSql.Sql

/-- Reads what begins with a character in front of a rest, and counts the
characters of the rest that belong to it. -/
abbrev Reader (α : Type) := Char → List Char → Option (α × Nat)

variable {α : Type}

/-- What a reader makes of a text in at most so many steps, none if it gets
stuck. -/
def scanWithin (read : Reader α) : Nat → List Char → Option (List α)
  | 0, _ => some []
  | steps + 1, text =>
    match text.dropWhile Text.isWhitespace with
    | [] => some []
    | c :: rest =>
      match read c rest with
      | none => none
      | some (item, more) => (scanWithin read steps (rest.drop more)).map (item :: ·)

/-- What a reader makes of a text, none if it gets stuck. -/
def scan (read : Reader α) (text : List Char) : Option (List α) :=
  scanWithin read text.length text

/-- Two bounds that both suffice give the same. -/
theorem scanWithin_congr (read : Reader α) {m n : Nat} {text : List Char}
    (hm : text.length ≤ m) (hn : text.length ≤ n) :
    scanWithin read m text = scanWithin read n text := by
  induction m generalizing text n with
  | zero =>
    have ht : text = [] := List.length_eq_zero_iff.mp (by omega)
    cases n with
    | zero => rfl
    | succ n => simp [scanWithin, ht]
  | succ m ih =>
    cases n with
    | zero =>
      have ht : text = [] := List.length_eq_zero_iff.mp (by omega)
      simp [scanWithin, ht]
    | succ n =>
      simp only [scanWithin]
      cases hd : text.dropWhile Text.isWhitespace with
      | nil => rfl
      | cons c rest =>
        have hlength := (List.dropWhile_sublist Text.isWhitespace (l := text)).length_le
        rw [hd, List.length_cons] at hlength
        cases hr : read c rest with
        | none => simp only [hr]
        | some found =>
          obtain ⟨item, more⟩ := found
          have hrest : (rest.drop more).length ≤ rest.length := by simp
          simp only [hr]
          rw [ih (n := n) (by omega) (by omega)]

/-- A scan of the empty text finds nothing and is not stuck. -/
theorem scan_nil (read : Reader α) : scan read [] = some [] := rfl

/-- Whitespace is skipped. -/
theorem scan_of_isWhitespace (read : Reader α) {c : Char} (hc : Text.isWhitespace c = true)
    (text : List Char) : scan read (c :: text) = scan read text := by
  have hdrop : (c :: text).dropWhile Text.isWhitespace = text.dropWhile Text.isWhitespace :=
    List.dropWhile_cons_of_pos hc
  have hsame (steps : Nat) :
      scanWithin read (steps + 1) (c :: text) = scanWithin read (steps + 1) text := by
    simp only [scanWithin, hdrop]
  rw [scan, List.length_cons, hsame]
  exact scanWithin_congr read (by omega) (Nat.le_refl _)

/-- A scan goes on behind what the reader found. -/
theorem scan_of_read {read : Reader α} {c : Char} {rest : List Char} {item : α} {more : Nat}
    (hc : Text.isWhitespace c = false) (hr : read c rest = some (item, more)) :
    scan read (c :: rest) = (scan read (rest.drop more)).map (item :: ·) := by
  have hdrop : (c :: rest).dropWhile Text.isWhitespace = c :: rest :=
    List.dropWhile_cons_of_neg (by simp [hc])
  have hrest : (rest.drop more).length ≤ rest.length := by simp
  simp only [scan, List.length_cons, scanWithin, hdrop, hr]
  rw [scanWithin_congr read hrest (Nat.le_refl _)]

/-- A scan gets stuck where the reader finds nothing. -/
theorem scan_of_stuck {read : Reader α} {c : Char} {rest : List Char}
    (hc : Text.isWhitespace c = false) (hr : read c rest = none) :
    scan read (c :: rest) = none := by
  have hdrop : (c :: rest).dropWhile Text.isWhitespace = c :: rest :=
    List.dropWhile_cons_of_neg (by simp [hc])
  simp only [scan, List.length_cons, scanWithin, hdrop, hr]

/-- A scan does not depend on the whitespace at the front. -/
theorem scan_dropWhile (read : Reader α) (text : List Char) :
    scan read (text.dropWhile Text.isWhitespace) = scan read text := by
  induction text with
  | nil => rfl
  | cons c rest ih =>
    by_cases hc : Text.isWhitespace c = true
    · rw [List.dropWhile_cons_of_pos hc, ih, scan_of_isWhitespace read hc]
    · rw [List.dropWhile_cons_of_neg hc]

/-! ## What begins at a character -/

namespace Lexeme

/-- A numeral stands for the finite number that it denotes, or is a bad one. -/
theorem number_cases (first : Char) (rest : List Char) :
    (∃ n, Binary64.ofText? (first :: rest.takeWhile isNumeral) = some n ∧ n.isFinite = true ∧
      number first rest = .token (.literal (.number n)) (rest.takeWhile isNumeral).length) ∨
    (Binary64.ofText? (first :: rest.takeWhile isNumeral)).filter Binary64.isFinite = none ∧
      number first rest = .badNumber (rest.takeWhile isNumeral).length := by
  rw [number]
  cases Binary64.ofText? (first :: rest.takeWhile isNumeral) with
  | none => exact .inr ⟨rfl, rfl⟩
  | some n =>
    by_cases hfinite : n.isFinite = true
    · exact .inl ⟨n, rfl, hfinite, if_pos hfinite⟩
    · exact .inr ⟨by rw [Option.filter_some, if_neg hfinite], if_neg hfinite⟩

/-- The first character says what is read: a numeral, a quoted text, a word or a sign. -/
theorem read_cases (first : Char) (rest : List Char) :
    ((first.isDigit || (first == '-' && rest.head?.any Char.isDigit)) = true ∧
      read first rest = number first rest) ∨
    ((first == '\'' || first == '"') = true ∧ read first rest = quoted first rest) ∨
    (Text.isAlphabetic first = true ∧ read first rest = word first rest) ∨
      read first rest = sign first rest.head? := by
  unfold read
  split
  next hnumber => exact .inl ⟨hnumber, rfl⟩
  next =>
    split
    next hquote => exact .inr (.inl ⟨hquote, rfl⟩)
    next =>
      split
      next hletter => exact .inr (.inr (.inl ⟨hletter, rfl⟩))
      next => exact .inr (.inr (.inr rfl))

end Lexeme

/-! ## Tokens -/

/-- The lexer's way of reading one token. -/
def Token.read? : Reader Token := fun c rest =>
  match Lexeme.read c rest with
  | .token token more => some (token, more)
  | _ => none

/-- The tokens of a text, none if there is a place where no token begins. -/
def tokens? (text : List Char) : Option (List Token) :=
  scan Token.read? text

/-- The tokens among what a lexer yields, none if it yields an error. -/
def allTokens? (items : List (Except LexicalError Token)) : Option (List Token) :=
  match collect items with
  | (tokens, none) => some tokens
  | (_, some _) => none

/-- A token that is yielded is the first of all. -/
theorem allTokens?_ok (token : Token) (items : List (Except LexicalError Token)) :
    allTokens? (.ok token :: items) = (allTokens? items).map (token :: ·) := by
  simp only [allTokens?, collect]
  obtain ⟨found, error⟩ := collect items
  cases error with
  | none => rfl
  | some error => rfl

/-- An error that is yielded leaves no list of all tokens. -/
theorem allTokens?_error (error : LexicalError) (items : List (Except LexicalError Token)) :
    allTokens? (.error error :: items) = none := rfl

/-- The front of a text is taken up to the first character of another class. -/
theorem takeWhile_append_of_head {p : Char → Bool} {front back : List Char}
    (hfront : ∀ c ∈ front, p c = true) (hback : ∀ c ∈ back.head?, p c = false) :
    (front ++ back).takeWhile p = front := by
  rw [List.takeWhile_append_of_pos hfront]
  cases back with
  | nil => simp
  | cons c back => simp [hback c rfl]

/-- What is behind as many characters as the front has in a class is what is left without that
front. -/
theorem drop_length_takeWhile (p : Char → Bool) (text : List Char) :
    text.drop (text.takeWhile p).length = text.dropWhile p := by
  calc text.drop (text.takeWhile p).length
      = (text.takeWhile p ++ text.dropWhile p).drop (text.takeWhile p).length := by
        rw [List.takeWhile_append_dropWhile]
    _ = text.dropWhile p := List.drop_left

/-- Skipping whitespace leaves what is behind it. -/
theorem rest_skipWhitespace (lexer : Lexer) :
    lexer.skipWhitespace.rest = lexer.rest.dropWhile Text.isWhitespace :=
  drop_length_takeWhile Text.isWhitespace lexer.rest

/-- What is left behind the whitespace begins with something else. -/
theorem isWhitespace_of_skipWhitespace {lexer : Lexer} {c : Char} {rest : List Char}
    (h : lexer.skipWhitespace.rest = c :: rest) : Text.isWhitespace c = false := by
  have hhead := List.head?_dropWhile_not Text.isWhitespace lexer.rest
  rw [← rest_skipWhitespace, h] at hhead
  simpa using hhead

/-- At the end of its text a lexer yields nothing. -/
theorem items_of_rest_nil {lexer : Lexer} (h : lexer.skipWhitespace.rest = []) :
    lexer.items = [] := by
  rw [Lexer.items_eq]
  simp only [Lexer.next?, h]

/-- From any place on, the lexer finds the tokens of what is left to read. -/
theorem allTokens?_items (lexer : Lexer) : allTokens? lexer.items = tokens? lexer.rest := by
  -- A token takes several characters at once, so the induction is on the length of what is
  -- left.
  induction hn : lexer.rest.length using Nat.strong_induction_on generalizing lexer with
  | _ n ih =>
    have hskip := rest_skipWhitespace lexer
    rw [tokens?, ← scan_dropWhile, ← hskip]
    cases hrest : lexer.skipWhitespace.rest with
    | nil => rw [items_of_rest_nil hrest, scan_nil]; rfl
    | cons c rest =>
      have hc := isWhitespace_of_skipWhitespace hrest
      rw [Lexer.items_eq]
      cases hread : Lexeme.read c rest with
      | token token more =>
        have hnext : lexer.next? = some (.ok token, lexer.skipWhitespace.advance (more + 1)) := by
          simp only [Lexer.next?, hrest, hread]
        have hbehind : (lexer.skipWhitespace.advance (more + 1)).rest = rest.drop more := by
          simp only [Lexer.advance, hrest, List.drop_succ_cons]
        have hshorter := Lexer.length_lt_of_next? hnext
        have htoken : Token.read? c rest = some (token, more) := by
          simp only [Token.read?, hread]
        rw [hnext, scan_of_read hc htoken]
        simp only [allTokens?_ok]
        rw [ih _ (by omega) _ rfl, hbehind, tokens?]
      | stray =>
        have hstuck : Token.read? c rest = none := by simp only [Token.read?, hread]
        simp only [Lexer.next?, hrest, hread, allTokens?_error, scan_of_stuck hc hstuck]
      | badNumber more =>
        have hstuck : Token.read? c rest = none := by simp only [Token.read?, hread]
        simp only [Lexer.next?, hrest, hread, allTokens?_error, scan_of_stuck hc hstuck]
      | openQuote =>
        have hstuck : Token.read? c rest = none := by simp only [Token.read?, hread]
        simp only [Lexer.next?, hrest, hread, allTokens?_error, scan_of_stuck hc hstuck]

/-- A text has tokens if and only if a scan finds them. -/
theorem tokenize_eq_ok_iff {text : List Char} {tokens : List Token} :
    tokenize text = .ok tokens ↔ tokens? text = some tokens := by
  have hitems : allTokens? (Lexer.start text).items = tokens? text :=
    allTokens?_items (Lexer.start text)
  rw [← hitems, allTokens?, tokenize, lexemes]
  obtain ⟨found, error⟩ := collect (Lexer.start text).items
  cases error with
  | none => simp
  | some error => simp

end EmbeddedSql.Sql
