import EmbeddedSql.Error
import EmbeddedSql.Proofs.Sql.Bytes
import EmbeddedSql.Proofs.Sql.Sources

/-!
# Where tokens and errors stand

The lexer accounts for all of a text. It passes one stretch after another, each of them
whitespace and the source of a token, up to whitespace at the end or an error. The place of an
error is between two characters, its span covers the character, the numeral or the open quote
that it is about, and a text that is cut at its place has the tokens that were found in front
of it.
-/

namespace EmbeddedSql.Sql

open Text.Utf8 (cut? size)

/-! ## Places -/

namespace Lexer

/-- The lexer stands in a text behind a front of it. -/
structure Stands (text front : List Char) (lexer : Lexer) : Prop where
  /-- It is the lexer's text. -/
  whole : lexer.whole = text
  /-- What is left to read is behind the front. -/
  text : text = front ++ lexer.rest
  /-- So many bytes are read as the front has. -/
  position : lexer.position = size front

variable {text front : List Char} {lexer behind last : Lexer}

/-- In the beginning the lexer stands in front of the text. -/
theorem stands_start (text : List Char) : (start text).Stands text [] :=
  ⟨rfl, rfl, rfl⟩

/-- A lexer that advances stands behind what it passed. -/
theorem Stands.advance (h : lexer.Stands text front) (count : Nat) :
    (lexer.advance count).Stands text (front ++ lexer.rest.take count) := by
  refine ⟨h.whole, ?_, ?_⟩
  · rw [Lexer.advance, List.append_assoc, List.take_append_drop]
    exact h.text
  · rw [Lexer.advance, h.position, Text.Utf8.size_append]

/-- A lexer that skips whitespace stands behind it. -/
theorem Stands.skipWhitespace (h : lexer.Stands text front) :
    lexer.skipWhitespace.Stands text (front ++ lexer.rest.takeWhile Text.isWhitespace) := by
  have hskip := h.advance (lexer.rest.takeWhile Text.isWhitespace).length
  rwa [Lexeme.take_length_takeWhile] at hskip

/-- A lexer that gave up stands at the end of the text. -/
theorem Stands.fuse (h : lexer.Stands text front) : lexer.fuse.Stands text text :=
  ⟨h.whole, (List.append_nil text).symm, congrArg size h.whole⟩

/-- Every step leads to a place in the text. -/
theorem Stands.next? (h : lexer.Stands text front) {item : Except LexicalError Token}
    (hn : lexer.next? = some (item, behind)) : ∃ front, behind.Stands text front := by
  have hhere := h.skipWhitespace
  rw [next?_eq] at hn
  split at hn
  · cases hn
  next first rest hrest =>
    cases hread : Lexeme.read first rest with
    | token token more =>
      rw [hread] at hn
      cases hn
      exact ⟨_, hhere.advance (more + 1)⟩
    | _ =>
      rw [hread] at hn
      cases hn
      exact ⟨_, hhere.fuse⟩

/-- A place is one at which the text can be cut. -/
theorem Stands.cut? (h : lexer.Stands text front) :
    cut? text lexer.position = some (front, lexer.rest) := by
  rw [h.position, h.text]
  exact Text.Utf8.cut?_append front lexer.rest

/-! ## Iterating -/

/-- Iterating the lexer yields items and leads to another place. -/
inductive Iterates : Lexer → List (Except LexicalError Token) → Lexer → Prop where
  /-- Nothing was asked for. -/
  | stay (lexer : Lexer) : Iterates lexer [] lexer
  /-- The next item and those behind it. -/
  | next {lexer behind last : Lexer} {item : Except LexicalError Token}
      {items : List (Except LexicalError Token)} (hn : lexer.next? = some (item, behind))
      (h : Iterates behind items last) : Iterates lexer (item :: items) last

/-- Iterating comes to an end, and what it has yielded then are the lexer's items. -/
theorem exists_iterates (lexer : Lexer) :
    ∃ last, Iterates lexer lexer.items last ∧ last.next? = none := by
  induction hl : lexer.rest.length using Nat.strong_induction_on generalizing lexer with
  | _ n ih =>
    rw [items_eq]
    cases hn : lexer.next? with
    | none => exact ⟨lexer, .stay lexer, hn⟩
    | some found =>
      obtain ⟨item, behind⟩ := found
      obtain ⟨last, hi, hlast⟩ := ih _ (hl ▸ length_lt_of_next? hn) behind rfl
      exact ⟨last, .next hn hi, hlast⟩

/-- Wherever iterating leads, the lexer stands in the text. -/
theorem Iterates.stands {items : List (Except LexicalError Token)} (hi : Iterates lexer items last)
    (h : lexer.Stands text front) : ∃ front, last.Stands text front := by
  induction hi generalizing front with
  | stay lexer => exact ⟨front, h⟩
  | next hn _ ih =>
    obtain ⟨_, hbehind⟩ := h.next? hn
    exact ih hbehind

/-! ## Stretches -/

/-- What the lexer passes to yield a token. -/
structure Stretch where
  /-- Whitespace. -/
  gap : List Char
  /-- The source of the token. -/
  source : List Char
  /-- The token. -/
  token : Token

/-- All of a stretch. -/
def Stretch.whole (stretch : Stretch) : List Char :=
  stretch.gap ++ stretch.source

/-- The lexer passes a stretch and yields its token. -/
structure Passes (lexer : Lexer) (stretch : Stretch) (behind : Lexer) : Prop where
  /-- The token is yielded. -/
  next : lexer.next? = some (.ok stretch.token, behind)
  /-- The stretch is what is read. -/
  rest : lexer.rest = stretch.whole ++ behind.rest
  /-- Its first part is whitespace. -/
  blank : ∀ c ∈ stretch.gap, Text.isWhitespace c = true
  /-- Its second part is a source of the token. -/
  source : Source stretch.token stretch.source
  /-- That is what the lexer reads at its place, up to the end of the source. -/
  read : ∃ c cs, stretch.source = c :: cs ∧ Text.isWhitespace c = false ∧
    Lexeme.read c (cs ++ behind.rest) = .token stretch.token cs.length

/-- A token is yielded by passing a stretch. -/
theorem exists_passes {token : Token} (h : lexer.next? = some (.ok token, behind)) :
    ∃ stretch, lexer.Passes stretch behind ∧ stretch.token = token := by
  have hnext := h
  rw [next?_eq] at h
  split at h
  · cases h
  next c rest hrest =>
    cases hread : Lexeme.read c rest with
    | token found more =>
      rw [hread] at h
      cases h
      have hsplit : rest.take more ++ rest.drop more = rest := List.take_append_drop more rest
      have hlength : (rest.take more).length = more :=
        List.length_take_of_le (Lexeme.le_of_read hread)
      have hbehind : (lexer.skipWhitespace.advance (more + 1)).rest = rest.drop more := by
        simp only [advance, hrest, List.drop_succ_cons]
      refine ⟨⟨lexer.rest.takeWhile Text.isWhitespace, c :: rest.take more, token⟩, ?_, rfl⟩
      constructor
      · exact hnext
      · rw [Stretch.whole, hbehind, List.append_assoc, List.cons_append, hsplit, ← hrest,
          rest_skipWhitespace, List.takeWhile_append_dropWhile]
      · exact fun d hd => List.mem_takeWhile_imp hd
      · refine Lexeme.source_of_read ?_
        -- What was read is read again when nothing stands behind it.
        have hcut := @Lexeme.read_of_cut c (rest.take more) [] (rest.drop more) token
        rw [List.nil_append, hsplit, hlength, List.append_nil] at hcut
        rw [hlength]
        exact hcut hread
      · refine ⟨c, rest.take more, rfl, isWhitespace_of_skipWhitespace hrest, ?_⟩
        rw [hbehind, hsplit, hlength]
        exact hread
    | _ =>
      rw [hread] at h
      cases h

/-- Whitespace at the front has no tokens. -/
theorem tokens?_of_blank {gap : List Char} (h : ∀ c ∈ gap, Text.isWhitespace c = true)
    (back : List Char) : Sql.tokens? (gap ++ back) = Sql.tokens? back := by
  rw [Sql.tokens?, ← scan_dropWhile, List.dropWhile_append_of_pos h, scan_dropWhile, Sql.tokens?]

/-- The token of a stretch is found whatever of the text is left behind it. -/
theorem Passes.tokens? {stretch : Stretch} (h : lexer.Passes stretch behind)
    {front back : List Char} (hcut : behind.rest = front ++ back) :
    Sql.tokens? (stretch.whole ++ front) = (Sql.tokens? front).map (stretch.token :: ·) := by
  obtain ⟨c, cs, hsource, hc, hread⟩ := h.read
  rw [hcut] at hread
  have hitem : Token.read? c (cs ++ front) = some (stretch.token, cs.length) := by
    simp only [Token.read?, Lexeme.read_of_cut hread]
  rw [Stretch.whole, List.append_assoc, tokens?_of_blank h.blank, hsource, List.cons_append,
    Sql.tokens?, scan_of_read hc hitem, List.drop_left, ← Sql.tokens?]

/-- The lexer passes one stretch after another. -/
inductive Walks : Lexer → List Stretch → Lexer → Prop where
  /-- It stays where it is. -/
  | stay (lexer : Lexer) : Walks lexer [] lexer
  /-- It passes a stretch and goes on behind it. -/
  | pass {lexer behind last : Lexer} {stretch : Stretch} {stretches : List Stretch}
      (hp : lexer.Passes stretch behind) (h : Walks behind stretches last) :
      Walks lexer (stretch :: stretches) last

/-- The lexer passes stretches as long as it yields tokens. -/
theorem exists_walks (lexer : Lexer) : ∃ stretches last, lexer.Walks stretches last ∧
    ∀ token behind, last.next? ≠ some (.ok token, behind) := by
  induction hl : lexer.rest.length using Nat.strong_induction_on generalizing lexer with
  | _ n ih =>
    by_cases hn : ∃ token behind, lexer.next? = some (.ok token, behind)
    · obtain ⟨token, behind, hn⟩ := hn
      obtain ⟨stretch, hp, -⟩ := exists_passes hn
      obtain ⟨stretches, last, hw, hlast⟩ := ih _ (hl ▸ length_lt_of_next? hn) behind rfl
      exact ⟨stretch :: stretches, last, .pass hp hw, hlast⟩
    · exact ⟨[], lexer, .stay lexer, fun token behind he => hn ⟨token, behind, he⟩⟩

namespace Walks

variable {stretches : List Stretch}

/-- What is read is the stretches. -/
theorem rest (h : lexer.Walks stretches last) :
    lexer.rest = stretches.flatMap Stretch.whole ++ last.rest := by
  induction h with
  | stay lexer => rfl
  | pass hp _ ih => rw [List.flatMap_cons, List.append_assoc, ← ih, hp.rest]

/-- What is yielded is their tokens. -/
theorem items (h : lexer.Walks stretches last) :
    lexer.items = (stretches.map Stretch.token).map .ok ++ last.items := by
  induction h with
  | stay lexer => rfl
  | pass hp _ ih => rw [items_eq, hp.next, List.map_cons, List.map_cons, List.cons_append, ← ih]

/-- Their tokens are found whatever of the text is left behind them. -/
theorem tokens? (h : lexer.Walks stretches last) {front back : List Char}
    (hcut : last.rest = front ++ back) :
    Sql.tokens? (stretches.flatMap Stretch.whole ++ front) =
      (Sql.tokens? front).map (stretches.map Stretch.token ++ ·) := by
  induction h with
  | stay lexer => exact Option.map_id'.symm
  | @pass lexer behind last stretch stretches hp hw ih =>
    have hbehind : behind.rest = (stretches.flatMap Stretch.whole ++ front) ++ back := by
      rw [hw.rest, hcut, List.append_assoc]
    rw [List.flatMap_cons, List.append_assoc, hp.tokens? hbehind, ih hcut, Option.map_map]
    rfl

/-- The lexer goes from one place in a text to another. -/
theorem stands (h : lexer.Walks stretches last) (hl : lexer.Stands text front) :
    last.Stands text (front ++ stretches.flatMap Stretch.whole) := by
  induction h generalizing front with
  | stay lexer => rwa [List.flatMap_nil, List.append_nil]
  | @pass lexer behind last stretch stretches hp _ ih =>
    obtain ⟨other, hbehind⟩ := hl.next? hp.next
    have hfront : other = front ++ stretch.whole := by
      have htext := hbehind.text
      rw [hl.text, hp.rest, ← List.append_assoc] at htext
      exact (List.append_cancel_right htext).symm
    rw [List.flatMap_cons, ← List.append_assoc]
    exact ih (hfront ▸ hbehind)

end Walks

end Lexer

/-! ## Errors -/

/-- What a span of a text covers, between what is in front of it and what is behind it; none if
it goes beyond the text or does not begin and end between two characters. -/
def Span.cut? (span : Span) (text : List Char) :
    Option (List Char × List Char × List Char) := do
  let (front, rest) ← Text.Utf8.cut? text span.offset
  let (covered, back) ← Text.Utf8.cut? rest span.length
  some (front, covered, back)

/-- A span whose numbers are the sizes of a front and of what is behind it covers the latter.
-/
theorem Span.cut?_append (front covered back : List Char) :
    (Span.mk (size front) (size covered)).cut? (front ++ (covered ++ back)) =
      some (front, covered, back) := by
  simp only [Span.cut?, Text.Utf8.cut?_append, Option.bind_eq_bind, Option.bind_some]

/-- What an error covers of a text, and what is behind it. -/
inductive LexicalError.Covers : LexicalError → List Char → List Char → Prop where
  /-- The character. -/
  | unexpectedCharacter {c : Char} {span : Span} {back : List Char} :
      Covers (.unexpectedCharacter c span) [c] back
  /-- All of a numeral without a finite value. -/
  | invalidNumber {numeral : List Char} {span : Span} {back : List Char}
      (value : (Binary64.ofText? numeral).filter Binary64.isFinite = none)
      (ends : ∀ c ∈ back.head?, Lexeme.isNumeral c = false) :
      Covers (.invalidNumber (String.ofList numeral) span) numeral back
  /-- Everything from a quote that is not closed. -/
  | unterminatedString {quote : Char} {content : List Char} {span : Span}
      (opens : Script.isQuote quote = true) (free : quote ∉ content) :
      Covers (.unterminatedString span) (quote :: content) []

namespace Lexeme

/-- A bad numeral goes as far as its characters go, and has no finite value. -/
theorem badNumber_of_read {c : Char} {rest : List Char} {more : Nat}
    (h : read c rest = .badNumber more) : more = (rest.takeWhile isNumeral).length ∧
      (Binary64.ofText? (c :: rest.takeWhile isNumeral)).filter Binary64.isFinite = none := by
  rcases read_cases c rest with ⟨_, hr⟩ | ⟨_, hr⟩ | ⟨_, hr⟩ | hr
  · rcases number_cases c rest with ⟨n, _, _, hn⟩ | ⟨hvalue, hn⟩
    · rw [hr, hn] at h
      cases h
    · rw [hr, hn, Lexeme.badNumber.injEq] at h
      exact ⟨h.symm, hvalue⟩
  · rcases quoted_cases c rest with ⟨_, hq⟩ | ⟨_, _, _, _, hq, _⟩ <;> rw [hr, hq] at h <;> cases h
  · rw [hr] at h
    cases h
  · rcases sign_cases c rest.head? with hs | ⟨_, _, hs⟩ <;> rw [hr, hs] at h <;> cases h

/-- An open quote is a quote that does not come again. -/
theorem openQuote_of_read {c : Char} {rest : List Char} (h : read c rest = .openQuote) :
    Script.isQuote c = true ∧ c ∉ rest := by
  rcases read_cases c rest with ⟨_, hr⟩ | ⟨hquote, hr⟩ | ⟨_, hr⟩ | hr
  · rcases number_cases c rest with ⟨_, _, _, hn⟩ | ⟨_, hn⟩ <;> rw [hr, hn] at h <;> cases h
  · rcases quoted_cases c rest with ⟨hfree, _⟩ | ⟨_, _, _, _, hq, _⟩
    · exact ⟨hquote, hfree⟩
    · rw [hr, hq] at h
      cases h
  · rw [hr] at h
    cases h
  · rcases sign_cases c rest.head? with hs | ⟨_, _, hs⟩ <;> rw [hr, hs] at h <;> cases h

end Lexeme

namespace Lexer

variable {text front : List Char} {lexer behind last : Lexer}

/-- An error covers what stands behind the whitespace, and nothing is yielded behind it. -/
theorem exists_covers {error : LexicalError} (h : lexer.next? = some (.error error, behind))
    (hl : lexer.Stands text front) :
    ∃ gap covered back, lexer.rest = gap ++ (covered ++ back) ∧
      (∀ c ∈ gap, Text.isWhitespace c = true) ∧
      error.span = ⟨size (front ++ gap), size covered⟩ ∧ error.Covers covered back ∧
      behind.next? = none := by
  have hposition := hl.skipWhitespace.position
  rw [next?_eq] at h
  split at h
  · cases h
  next c rest hrest =>
    have hsplit : lexer.rest = lexer.rest.takeWhile Text.isWhitespace ++ (c :: rest) := by
      rw [← hrest, rest_skipWhitespace, List.takeWhile_append_dropWhile]
    have hblank : ∀ d ∈ lexer.rest.takeWhile Text.isWhitespace, Text.isWhitespace d = true :=
      fun d hd => List.mem_takeWhile_imp hd
    have hfused : lexer.skipWhitespace.fuse.next? = none := rfl
    cases hread : Lexeme.read c rest with
    | token token more =>
      rw [hread] at h
      cases h
    | stray =>
      rw [hread] at h
      cases h
      exact ⟨_, [c], rest, hsplit, hblank, by rw [LexicalError.span, hposition]; rfl,
        .unexpectedCharacter, hfused⟩
    | badNumber more =>
      rw [hread] at h
      cases h
      obtain ⟨rfl, hvalue⟩ := Lexeme.badNumber_of_read hread
      have hrest : rest = rest.takeWhile Lexeme.isNumeral ++ rest.dropWhile Lexeme.isNumeral :=
        List.takeWhile_append_dropWhile.symm
      have hends : ∀ d ∈ (rest.dropWhile Lexeme.isNumeral).head?, Lexeme.isNumeral d = false := by
        intro d hd
        have hhead := List.head?_dropWhile_not Lexeme.isNumeral rest
        rw [Option.mem_def.mp hd] at hhead
        exact hhead
      rw [Lexeme.take_length_takeWhile]
      refine ⟨_, c :: rest.takeWhile Lexeme.isNumeral, rest.dropWhile Lexeme.isNumeral, ?_, hblank,
        ?_, .invalidNumber hvalue hends, hfused⟩
      · rw [List.cons_append, ← hrest]
        exact hsplit
      · rw [LexicalError.span, hposition]
    | openQuote =>
      rw [hread] at h
      cases h
      obtain ⟨hquote, hfree⟩ := Lexeme.openQuote_of_read hread
      refine ⟨_, c :: rest, [], by rw [List.append_nil]; exact hsplit, hblank, ?_,
        .unterminatedString hquote hfree, hfused⟩
      rw [LexicalError.span, hposition]

/-- What is left when nothing is yielded is whitespace. -/
theorem blank_of_next?_eq_none (h : lexer.next? = none) :
    ∀ c ∈ lexer.rest, Text.isWhitespace c = true := by
  rw [next?_eq] at h
  split at h
  next hrest =>
    rw [rest_skipWhitespace, List.dropWhile_eq_nil_iff] at hrest
    exact hrest
  next => cases h

/-- What collecting the items gives if there are tokens and then perhaps an error. -/
theorem collect_tokens (tokens : List Token) (items : List (Except LexicalError Token)) :
    collect (tokens.map .ok ++ items) = (tokens ++ (collect items).1, (collect items).2) := by
  induction tokens with
  | nil => rfl
  | cons token rest ih => rw [List.map_cons, List.cons_append, collect, ih]; rfl

/-- The outcome for a text is the tokens that were yielded first, in front of what the
remaining items come to, unless these hold an error. -/
theorem tokenize_of_items {tokens : List Token} {items : List (Except LexicalError Token)}
    (h : (start text).items = tokens.map .ok ++ items) :
    tokenize text = match (collect items).2 with
      | none => .ok (tokens ++ (collect items).1)
      | some error => .error error := by
  rw [tokenize, lexemes, h, collect_tokens]
  cases (collect items).2 with
  | none => rfl
  | some error => rfl

/-- The lexer passes stretches up to the whitespace at the end of the text, or up to an
error. -/
theorem exists_walks_start (text : List Char) :
    ∃ stretches last, (start text).Walks stretches last ∧
      ((last.next? = none ∧ tokenize text = .ok (stretches.map Stretch.token)) ∨
        ∃ error behind, last.next? = some (.error error, behind) ∧
          tokenize text = .error error ∧
          (start text).items = (stretches.map Stretch.token).map .ok ++ [.error error]) := by
  obtain ⟨stretches, last, hw, hlast⟩ := exists_walks (start text)
  refine ⟨stretches, last, hw, ?_⟩
  have hitems := hw.items
  rw [items_eq last] at hitems
  cases hn : last.next? with
  | none =>
    simp only [hn] at hitems
    refine .inl ⟨rfl, ?_⟩
    rw [tokenize_of_items hitems]
    exact congrArg Except.ok (List.append_nil _)
  | some found =>
    obtain ⟨item, behind⟩ := found
    cases item with
    | ok token => exact absurd hn (hlast token behind)
    | error error =>
      simp only [hn] at hitems
      have hstands := hw.stands (stands_start text)
      obtain ⟨_, _, _, _, _, _, _, hnone⟩ := exists_covers hn hstands
      rw [items_eq behind, hnone] at hitems
      exact .inr ⟨error, behind, rfl, by rw [tokenize_of_items hitems]; rfl, hitems⟩

/-- The lexer accounts for every text. Iterating it comes to an end; on the way it cuts only
inside the text and between characters, and what is left is always the text from its place on.
A text without an error is what is passed for its tokens, whitespace and sources, and
whitespace. An error is the last item, its span begins and ends between characters of the text
and covers what the error is about, and the text in front of it has the tokens that were
yielded before it. -/
theorem accounts_for_text (text : List Char) :
    (∃ last, Iterates (start text) (start text).items last ∧ last.next? = none) ∧
      (∀ items lexer, Iterates (start text) items lexer →
        lexer.nextBytes? = some lexer.next? ∧
          ∃ front, cut? text lexer.position = some (front, lexer.rest)) ∧
      (∀ tokens, tokenize text = .ok tokens → ∃ stretches last,
        (start text).Walks stretches last ∧ stretches.map Stretch.token = tokens ∧
          text = stretches.flatMap Stretch.whole ++ last.rest ∧
          ∀ c ∈ last.rest, Text.isWhitespace c = true) ∧
      ∀ error, tokenize text = .error error → ∃ tokens front covered back,
        (start text).items = tokens.map .ok ++ [.error error] ∧
          error.span.cut? text = some (front, covered, back) ∧ error.Covers covered back ∧
          tokenize front = .ok tokens := by
  obtain ⟨stretches, last, hw, hlast⟩ := exists_walks_start text
  refine ⟨exists_iterates (start text), fun items lexer hi => ?_, fun tokens ht => ?_,
    fun error he => ?_⟩
  · obtain ⟨front, hstands⟩ := hi.stands (stands_start text)
    exact ⟨nextBytes?_eq lexer, front, hstands.cut?⟩
  · rcases hlast with ⟨hnone, hok⟩ | ⟨error, _, _, herror, _⟩
    · rw [hok] at ht
      exact ⟨stretches, last, hw, Except.ok.inj ht, hw.rest, blank_of_next?_eq_none hnone⟩
    · rw [herror] at ht
      cases ht
  · rcases hlast with ⟨_, hok⟩ | ⟨found, behind, hn, herror, hitems⟩
    · rw [hok] at he
      cases he
    · rw [herror] at he
      cases he
      have hstands := hw.stands (stands_start text)
      obtain ⟨gap, covered, back, hrest, hblank, hspan, hcovers, -⟩ := exists_covers hn hstands
      have htext : text = (stretches.flatMap Stretch.whole ++ gap) ++ (covered ++ back) := by
        rw [List.append_assoc, ← hrest]
        exact hw.rest
      refine ⟨_, stretches.flatMap Stretch.whole ++ gap, covered, back, hitems, ?_, hcovers, ?_⟩
      · rw [hspan, htext]
        exact Span.cut?_append _ covered back
      · have hgap : Sql.tokens? gap = some [] := by
          rw [← List.append_nil gap, tokens?_of_blank hblank]
          rfl
        rw [tokenize_eq_ok_iff, hw.tokens? hrest, hgap, Option.map_some, List.append_nil]

end Lexer

end EmbeddedSql.Sql
