import EmbeddedSql.Proofs.Sql.Substitution

/-!
# Reading two texts side by side

A text with placeholders is read with every placeholder as one item. Next to it
stands a text with words in their places, and the lexer reads that. The two
readings keep in step: they get stuck at the same character, and what they find
differs only where a word stands in a placeholder's place.
-/

namespace EmbeddedSql.Sql

/-- What a text with placeholders is made of. -/
inductive Item where
  /-- A token. -/
  | token (token : Token)
  /-- A placeholder with its number. -/
  | placeholder (index : Nat)
  deriving DecidableEq, Repr

namespace Template

/-- The number that the digits of a placeholder spell. One that 64 bits cannot
hold counts as zero. -/
def indexOf (digits : List Char) : Nat :=
  let index := digits.foldl (fun soFar c => soFar * 10 + Decimal.digitValue c) 0
  if index < Nat.pow 2 64 then index else 0

end Template

/-- Reads a placeholder, or else a token as the lexer does. -/
def Item.read? : Reader Item := fun c rest =>
  if isMark c rest.head? then
    some (.placeholder (Template.indexOf (rest.takeWhile Char.isDigit)),
      (rest.takeWhile Char.isDigit).length)
  else (Token.read? c rest).map fun found => (.token found.1, found.2)

/-- The items of a text with placeholders, none if there is a place where no
item begins. -/
def items? (text : List Char) : Option (List Item) :=
  scan Item.read? text

namespace TextSwap

variable {exchange : Exchange} {glued : Bool}

/-- Characters that join and are no quotes are the same in both texts up to the
first one that is not of their class. -/
theorem takeWhile {p : Char → Bool}
    (hp : ∀ c, p c = true → joins c = true ∧ Script.isQuote c = false) {left right : List Char}
    (h : TextSwap exchange none true left right) :
    left.takeWhile p = right.takeWhile p ∧
      ∃ glued, TextSwap exchange none glued (left.drop (left.takeWhile p).length)
        (right.drop (left.takeWhile p).length) := by
  generalize hg : true = glued at h
  generalize hq : (none : Option Char) = quote at h
  induction h with
  | nil => exact ⟨rfl, glued, .nil⟩
  | @char quote glued c left right mark rest ih =>
    subst hq hg
    by_cases hc : p c = true
    · have hnone : quoteAfter none c = none := by simp [quoteAfter, (hp c hc).2]
      rw [hnone] at ih
      have hrest := ih (hp c hc).1.symm rfl
      rw [List.takeWhile_cons_of_pos hc, List.takeWhile_cons_of_pos hc]
      exact ⟨congrArg (c :: ·) hrest.1, hrest.2⟩
    · rw [List.takeWhile_cons_of_neg hc, List.takeWhile_cons_of_neg hc]
      exact ⟨rfl, true, .char mark rest⟩
  | word words next rest ih => cases hg

/-- Behind a quote both texts are the same up to the next quote like it. -/
theorem quoted {opened : Char} {left right : List Char}
    (h : TextSwap exchange (some opened) glued left right) :
    left.contains opened = right.contains opened ∧
      (left.contains opened = true →
        left.takeWhile (· != opened) = right.takeWhile (· != opened) ∧
        ∃ glued, TextSwap exchange none glued
          (left.drop ((left.takeWhile (· != opened)).length + 1))
          (right.drop ((left.takeWhile (· != opened)).length + 1))) := by
  generalize hq : some opened = quote at h
  induction h with
  | nil => exact ⟨rfl, fun hc => by simp at hc⟩
  | @char quote glued c left right mark rest ih =>
    subst hq
    by_cases hc : c = opened
    · subst hc
      have hnone : quoteAfter (some c) c = none := by simp [quoteAfter]
      rw [hnone] at rest
      simp only [List.contains_cons, BEq.rfl, Bool.true_or, bne_self_eq_false,
        Bool.false_eq_true, not_false_eq_true, List.takeWhile_cons_of_neg, List.length_nil,
        Nat.zero_add, List.drop_succ_cons, List.drop_zero, true_and]
      exact fun _ => ⟨joins c, rest⟩
    · have hsame : some opened = quoteAfter (some opened) c := by simp [quoteAfter, hc]
      have hrest := ih hsame
      have hne : (opened == c) = false := beq_false_of_ne (Ne.symm hc)
      have hcons (text : List Char) :
          (c :: text).takeWhile (· != opened) = c :: text.takeWhile (· != opened) :=
        List.takeWhile_cons_of_pos (by simp [hc])
      rw [List.contains_cons, List.contains_cons, hne, Bool.false_or, Bool.false_or, hcons, hcons]
      exact ⟨hrest.1, fun hcontains => ⟨congrArg (c :: ·) (hrest.2 hcontains).1,
        (hrest.2 hcontains).2⟩⟩
  | word words next rest ih => cases hq

/-- An equals sign follows in both texts or in neither. -/
theorem equal {left right : List Char} (h : TextSwap exchange none glued left right) :
    (left.head? = some '=' ↔ right.head? = some '=') ∧
      (left.head? = some '=' →
        ∃ glued, TextSwap exchange none glued (left.drop 1) (right.drop 1)) := by
  cases h with
  | nil => simp
  | @char _ _ c left right mark rest =>
    refine ⟨Iff.rfl, fun hc => ?_⟩
    have he : c = '=' := by simpa using hc
    subst he
    exact ⟨joins '=', rest⟩
  | @word old new left right words next rest =>
    have hold := (exchange.left words)
    have hnew := (exchange.right words)
    obtain ⟨c, cs, rfl, _⟩ := hold.first
    obtain ⟨d, ds, rfl, _⟩ := hnew.first
    have hc := hold.head_ne
    have hd := hnew.head_ne
    simp only [List.head?_cons, ne_eq] at hc hd
    simp [hc, hd]

end TextSwap

/-- A sign takes up one more character only if that is an equals sign. -/
theorem sign_more {c : Char} {next : Option Char} {token : Token} {more : Nat}
    (h : Lexeme.sign c next = .token token more) : more = 0 ∨ (more = 1 ∧ next = some '=') := by
  unfold Lexeme.sign at h
  split at h
  all_goals try (split at h)
  all_goals simp_all

/-- Of the character behind a sign it only matters whether it is an equals sign. -/
theorem sign_congr (c : Char) {next next' : Option Char}
    (h : next = some '=' ↔ next' = some '=') : Lexeme.sign c next = Lexeme.sign c next' := by
  unfold Lexeme.sign
  simp only [h]

namespace TextSwap

variable {exchange : Exchange} {glued : Bool}

/-- What begins in two texts is the same, and behind a token the texts go on
together. -/
structure Agrees (exchange : Exchange) (left right : List Char) (first second : Lexeme) :
    Prop where
  /-- What begins is the same. -/
  same : first = second
  /-- The texts behind a token. -/
  behind : ∀ {token : Token} {more : Nat}, first = .token token more →
    ∃ glued, TextSwap exchange none glued (left.drop more) (right.drop more)

/-- A numeral goes on with the same digits and points. -/
theorem agrees_number (c : Char) {left right : List Char}
    (h : TextSwap exchange none true left right) :
    Agrees exchange left right (Lexeme.number c left) (Lexeme.number c right) := by
  obtain ⟨hsame, hrest⟩ := h.takeWhile fun _ hd => joins_of_isNumeral hd
  constructor
  · rw [Lexeme.number, Lexeme.number, hsame]
  · intro token more hread
    have hmore : (left.takeWhile Lexeme.isNumeral).length = more := by
      unfold Lexeme.number at hread
      dsimp only at hread
      split at hread
      next n _ =>
        split at hread
        · exact (Lexeme.token.inj hread).2
        · cases hread
      next => cases hread
    rw [← hmore]
    exact hrest

/-- A quoted text is the same up to the closing quote. -/
theorem agrees_quoted (c : Char) {left right : List Char}
    (h : TextSwap exchange (some c) glued left right) :
    Agrees exchange left right (Lexeme.quoted c left) (Lexeme.quoted c right) := by
  obtain ⟨hcontains, hsame⟩ := h.quoted
  by_cases hclosed : left.contains c = true
  · obtain ⟨htext, hrest⟩ := hsame hclosed
    have hleft : Lexeme.quoted c left = .token
        (.literal (.text (String.ofList (left.takeWhile (· != c)))))
        ((left.takeWhile (· != c)).length + 1) := if_pos hclosed
    have hright : Lexeme.quoted c right = .token
        (.literal (.text (String.ofList (right.takeWhile (· != c)))))
        ((right.takeWhile (· != c)).length + 1) := if_pos (hcontains ▸ hclosed)
    constructor
    · rw [hleft, hright, htext]
    · intro token more hread
      rw [hleft] at hread
      cases hread
      exact hrest
  · have hleft : Lexeme.quoted c left = .openQuote := if_neg hclosed
    have hright : Lexeme.quoted c right = .openQuote := if_neg (hcontains ▸ hclosed)
    constructor
    · rw [hleft, hright]
    · intro token more hread
      rw [hleft] at hread
      cases hread

/-- A word goes on with the same letters and digits. -/
theorem agrees_word (c : Char) {left right : List Char}
    (h : TextSwap exchange none true left right) :
    Agrees exchange left right (Lexeme.word c left) (Lexeme.word c right) := by
  obtain ⟨hsame, hrest⟩ := h.takeWhile fun _ hd => joins_of_isWordPart hd
  constructor
  · rw [Lexeme.word, Lexeme.word, hsame]
  · intro token more hread
    cases hread
    exact hrest

/-- For a sign it only matters whether an equals sign follows. -/
theorem agrees_sign (c : Char) {left right : List Char}
    (h : TextSwap exchange none glued left right) :
    Agrees exchange left right (Lexeme.sign c left.head?) (Lexeme.sign c right.head?) := by
  obtain ⟨hequal, hrest⟩ := h.equal
  constructor
  · exact sign_congr c hequal
  · intro token more hread
    rcases sign_more hread with rfl | ⟨rfl, he⟩
    · exact ⟨glued, h⟩
    · exact hrest he

/-- At a character that stands as it is the same begins in both texts. -/
theorem agrees_read {c : Char} {left right : List Char}
    (h : TextSwap exchange (quoteAfter none c) (joins c) left right) :
    Agrees exchange left right (Lexeme.read c left) (Lexeme.read c right) := by
  -- A digit behind a dash stands in both texts or in none, as no word begins behind a dash.
  have hbegins : (c.isDigit || (c == '-' && right.head?.any Char.isDigit)) =
      (c.isDigit || (c == '-' && left.head?.any Char.isDigit)) := by
    by_cases hc : c = '-'
    · subst hc
      have hjoins : joins '-' = true := by decide
      rw [hjoins] at h
      rw [h.head?_eq]
    · rw [beq_false_of_ne hc, Bool.false_and, Bool.false_and]
  simp only [Lexeme.read, hbegins]
  by_cases hnumber : (c.isDigit || (c == '-' && left.head?.any Char.isDigit)) = true
  · have hc : joins c = true ∧ Script.isQuote c = false := by
      simp only [Bool.or_eq_true, Bool.and_eq_true, beq_iff_eq] at hnumber
      rcases hnumber with hd | ⟨rfl, -⟩
      · exact joins_of_isWordPart (isWordPart_of_isDigit hd)
      · decide
    have hnone : quoteAfter none c = none := by simp [quoteAfter, hc.2]
    rw [hnone, hc.1] at h
    rw [if_pos hnumber, if_pos hnumber]
    exact h.agrees_number c
  · rw [if_neg hnumber, if_neg hnumber]
    by_cases hquote : (c == '\'' || c == '"') = true
    · have hsome : quoteAfter none c = some c := by simp [quoteAfter, Script.isQuote, hquote]
      rw [hsome] at h
      rw [if_pos hquote, if_pos hquote]
      exact h.agrees_quoted c
    · have hnone : quoteAfter none c = none := by simp [quoteAfter, Script.isQuote, hquote]
      rw [hnone] at h
      rw [if_neg hquote, if_neg hquote]
      by_cases hword : Text.isAlphabetic c = true
      · have hc : joins c = true := by
          simp [joins, Lexeme.isWordPart, Text.isAlphanumeric, hword]
        rw [hc] at h
        rw [if_pos hword, if_pos hword]
        exact h.agrees_word c
      · rw [if_neg hword, if_neg hword]
        exact h.agrees_sign c

/-- At a character that stands as it is the lexer reads the same token in both
texts, or gets stuck in both. -/
theorem read? {c : Char} {left right : List Char}
    (h : TextSwap exchange (quoteAfter none c) (joins c) left right) :
    (Token.read? c left = none ∧ Token.read? c right = none) ∨
      ∃ token more, Token.read? c left = some (token, more) ∧
        Token.read? c right = some (token, more) ∧
        ∃ glued, TextSwap exchange none glued (left.drop more) (right.drop more) := by
  obtain ⟨hsame, hbehind⟩ := h.agrees_read
  simp only [Token.read?, ← hsame]
  cases hread : Lexeme.read c left with
  | token token more => exact .inr ⟨token, more, rfl, rfl, hbehind hread⟩
  | stray => exact .inl ⟨rfl, rfl⟩
  | badNumber more => exact .inl ⟨rfl, rfl⟩
  | openQuote => exact .inl ⟨rfl, rfl⟩

/-- The tokens of the text with words are the items of the text with
placeholders, filled in, provided that each word is read as the token that its
placeholder is filled with. -/
theorem tokens? {fill : Item → Token} (hfill : ∀ token, fill (.token token) = token)
    (hwords : ∀ old new, exchange.words old new → ∃ c cs d ds item, old = c :: cs ∧
      new = d :: ds ∧ ∀ back : List Char, (∀ x ∈ back.head?, goesOn x = false) →
        Item.read? c (cs ++ back) = some (item, cs.length) ∧
        Token.read? d (ds ++ back) = some (fill item, ds.length))
    {left right : List Char} (h : TextSwap exchange none glued left right) :
    tokens? right = (items? left).map (·.map fill) := by
  -- A token takes several characters at once, so the induction is on the length of the text.
  induction hn : left.length using Nat.strong_induction_on generalizing left right glued with
  | _ n ih =>
    cases h with
    | nil => rfl
    | @char _ _ c left right mark rest =>
      by_cases hc : Text.isWhitespace c = true
      · have hnone : quoteAfter none c = none := by
          simp [quoteAfter, isQuote_of_isWhitespace hc]
        rw [hnone] at rest
        simp only [Sql.tokens?, items?, scan_of_isWhitespace _ hc]
        exact ih left.length (by rw [← hn]; simp) rest rfl
      · have hc' : Text.isWhitespace c = false := Bool.eq_false_iff.mpr hc
        -- No placeholder begins here, so an item is read as the token that it is.
        have hitem : Item.read? c left =
            (Token.read? c left).map fun found => (.token found.1, found.2) := by
          rw [Item.read?, mark rfl]
          rfl
        rcases rest.read? with ⟨hleft, hright⟩ | ⟨token, more, hleft, hright, _, hrest⟩
        · rw [hleft] at hitem
          simp only [Sql.tokens?, items?, scan_of_stuck hc' hright, scan_of_stuck hc' hitem]
          rfl
        · rw [hleft] at hitem
          have hlength : (left.drop more).length < n := by
            rw [← hn, List.length_cons, List.length_drop]
            omega
          have hbehind := ih _ hlength hrest rfl
          simp only [Sql.tokens?, items?] at hbehind
          simp only [Sql.tokens?, items?, scan_of_read hc' hright, scan_of_read hc' hitem, hbehind,
            Option.map_map]
          congr 1
          funext items
          simp [hfill]
    | @word old new left right words next rest =>
      obtain ⟨c, cs, d, ds, item, rfl, rfl, hread⟩ := hwords old new words
      have hc : Text.isWhitespace c = false := by
        obtain ⟨_, _, he, hc⟩ := (exchange.left words).first
        rwa [← (List.cons.inj he).1] at hc
      have hd : Text.isWhitespace d = false := by
        obtain ⟨_, _, he, hd⟩ := (exchange.right words).first
        rwa [← (List.cons.inj he).1] at hd
      have hlength : left.length < n := by
        rw [← hn]
        simp only [List.cons_append, List.length_cons, List.length_append]
        omega
      have hbehind := ih _ hlength rest rfl
      have hright := (hread right (rest.head?_eq ▸ next)).2
      have hleft := (hread left next).1
      simp only [Sql.tokens?, items?] at hbehind
      simp only [Sql.tokens?, items?, List.cons_append, scan_of_read hd hright,
        scan_of_read hc hleft, List.drop_left, hbehind, Option.map_map]
      congr 1

end TextSwap

end EmbeddedSql.Sql
