import EmbeddedSql.Proofs.Sql.Lockstep

/-!
# What the lexer finds, positions aside

The lexer's findings in a text are its tokens and the error that ends them, the
error without its place. They obey one equation for each thing that can stand at
the front of a text. What begins at a character depends on the characters that
belong to it and on the next one, and of the next one it only matters which it
is if it is no whitespace.
-/

namespace EmbeddedSql.Sql

/-! ## Findings -/

/-- The error as it would be at the beginning of a text, without a length. -/
def LexicalError.unplaced : LexicalError → LexicalError
  | .unexpectedCharacter c _ => .unexpectedCharacter c ⟨0, 0⟩
  | .invalidNumber text _ => .invalidNumber text ⟨0, 0⟩
  | .unterminatedString _ => .unterminatedString ⟨0, 0⟩

/-- The tokens up to the first error, and that error without its place. -/
def unplaced (found : List Token × Option LexicalError) : List Token × Option LexicalError :=
  (found.1, found.2.map LexicalError.unplaced)

/-- What the lexer finds in a text, positions aside. -/
def findings (text : List Char) : List Token × Option LexicalError :=
  unplaced (lexemes text)

/-- What is found in a text by way of what begins at its first character. -/
def findingsAt (c : Char) (rest : List Char) : List Token × Option LexicalError :=
  match Lexeme.read c rest with
  | .token token more => (token :: (findings (rest.drop more)).1, (findings (rest.drop more)).2)
  | .stray => ([], some (.unexpectedCharacter c ⟨0, 0⟩))
  | .badNumber more => ([], some (.invalidNumber (String.ofList (c :: rest.take more)) ⟨0, 0⟩))
  | .openQuote => ([], some (.unterminatedString ⟨0, 0⟩))

/-- A token that is yielded is the first one found. -/
theorem unplaced_collect_ok (token : Token) (items : List (Except LexicalError Token)) :
    unplaced (collect (.ok token :: items)) =
      (token :: (unplaced (collect items)).1, (unplaced (collect items)).2) := rfl

/-- What is left to read behind a token and the whitespace that follows it. -/
theorem rest_behind {lexer : Lexer} {c : Char} {rest : List Char}
    (h : lexer.skipWhitespace.rest = c :: rest) (more : Nat) :
    (lexer.skipWhitespace.advance (more + 1)).skipWhitespace.rest =
      (rest.drop more).dropWhile Text.isWhitespace := by
  rw [rest_skipWhitespace]
  simp only [Lexer.advance, h, List.drop_succ_cons]

/-- Lexers with the same left to read behind the whitespace find the same. -/
theorem unplaced_items_congr {lexer other : Lexer}
    (h : lexer.skipWhitespace.rest = other.skipWhitespace.rest) :
    unplaced (collect lexer.items) = unplaced (collect other.items) := by
  induction hn : lexer.rest.length using Nat.strong_induction_on generalizing lexer other with
  | _ n ih =>
    cases hrest : lexer.skipWhitespace.rest with
    | nil => rw [items_of_rest_nil hrest, items_of_rest_nil (h.symm.trans hrest)]
    | cons c rest =>
      have hother := h.symm.trans hrest
      rw [Lexer.items_eq lexer, Lexer.items_eq other]
      cases hread : Lexeme.read c rest with
      | token token more =>
        have hnext : lexer.next? = some (.ok token, lexer.skipWhitespace.advance (more + 1)) := by
          simp only [Lexer.next?, hrest, hread]
        have hnext' : other.next? = some (.ok token, other.skipWhitespace.advance (more + 1)) := by
          simp only [Lexer.next?, hother, hread]
        have hsame : (lexer.skipWhitespace.advance (more + 1)).skipWhitespace.rest =
            (other.skipWhitespace.advance (more + 1)).skipWhitespace.rest := by
          rw [rest_behind hrest, rest_behind hother]
        rw [hnext, hnext']
        simp only [unplaced_collect_ok]
        rw [ih _ (hn ▸ Lexer.length_lt_of_next? hnext) hsame rfl]
      | stray => simp only [Lexer.next?, hrest, hother, hread, collect, unplaced]; rfl
      | badNumber more => simp only [Lexer.next?, hrest, hother, hread, collect, unplaced]; rfl
      | openQuote => simp only [Lexer.next?, hrest, hother, hread, collect, unplaced]; rfl

/-- In the empty text nothing is found. -/
theorem findings_nil : findings [] = ([], none) := rfl

/-- Whitespace in front makes no difference to what is found. -/
theorem findings_of_isWhitespace {c : Char} (hc : Text.isWhitespace c = true) (rest : List Char) :
    findings (c :: rest) = findings rest := by
  refine unplaced_items_congr ?_
  simp only [rest_skipWhitespace, Lexer.start]
  exact List.dropWhile_cons_of_pos hc

/-- What is found in a text without whitespace in front begins with what is read at its first
character. -/
theorem findings_cons {c : Char} (hc : Text.isWhitespace c = false) (rest : List Char) :
    findings (c :: rest) = findingsAt c rest := by
  have hrest : (Lexer.start (c :: rest)).skipWhitespace.rest = c :: rest := by
    rw [rest_skipWhitespace]
    exact List.dropWhile_cons_of_neg (by simp [hc])
  rw [findings, lexemes, Lexer.items_eq, findingsAt]
  cases hread : Lexeme.read c rest with
  | token token more =>
    have hnext : (Lexer.start (c :: rest)).next? =
        some (.ok token, (Lexer.start (c :: rest)).skipWhitespace.advance (more + 1)) := by
      simp only [Lexer.next?, hrest, hread]
    have hbehind : unplaced (collect
        ((Lexer.start (c :: rest)).skipWhitespace.advance (more + 1)).items) =
          findings (rest.drop more) := by
      refine unplaced_items_congr ?_
      rw [rest_behind hrest, rest_skipWhitespace]
      rfl
    rw [hnext]
    simp only [unplaced_collect_ok, hbehind]
  | stray => simp only [Lexer.next?, hrest, hread, collect, unplaced]; rfl
  | badNumber more => simp only [Lexer.next?, hrest, hread, collect, unplaced]; rfl
  | openQuote => simp only [Lexer.next?, hrest, hread, collect, unplaced]; rfl

/-- A text has tokens if and only if these are found and nothing else. -/
theorem tokenize_eq_ok_iff_findings {text : List Char} {tokens : List Token} :
    tokenize text = .ok tokens ↔ findings text = (tokens, none) := by
  rw [tokenize, findings, unplaced]
  obtain ⟨found, error⟩ := lexemes text
  cases error with
  | none => simp
  | some error => simp

/-- A property of texts holds if it comes from what is left behind whitespace or a
token, and of texts at whose front no token stands. -/
theorem lexing {motive : List Char → Prop} (nil : motive [])
    (space : ∀ c rest, Text.isWhitespace c = true → motive rest → motive (c :: rest))
    (token : ∀ c rest token more, Text.isWhitespace c = false →
      Lexeme.read c rest = .token token more → motive (rest.drop more) → motive (c :: rest))
    (stuck : ∀ c rest, Text.isWhitespace c = false →
      (∀ token more, Lexeme.read c rest ≠ .token token more) → motive (c :: rest))
    (text : List Char) : motive text := by
  induction hn : text.length using Nat.strong_induction_on generalizing text with
  | _ n ih =>
    cases text with
    | nil => exact nil
    | cons c rest =>
      rw [List.length_cons] at hn
      by_cases hc : Text.isWhitespace c = true
      · exact space c rest hc (ih rest.length (by omega) rest rfl)
      · rw [Bool.not_eq_true] at hc
        cases hread : Lexeme.read c rest with
        | token found more =>
          have hshorter : (rest.drop more).length < n := by
            rw [List.length_drop]
            omega
          exact token c rest found more hc hread (ih _ hshorter _ rfl)
        | stray => exact stuck c rest hc (by simp [hread])
        | badNumber more => exact stuck c rest hc (by simp [hread])
        | openQuote => exact stuck c rest hc (by simp [hread])

/-! ## What belongs to a lexeme -/

namespace Lexeme

/-- How many characters behind the first one belong to what begins there. -/
def more : Lexeme → Nat
  | .token _ more => more
  | .stray => 0
  | .badNumber more => more
  | .openQuote => 0

/-- What begins with a quote is read as a quoted text. -/
theorem read_of_isQuote {c : Char} (h : Script.isQuote c = true) (rest : List Char) :
    read c rest = quoted c rest := by
  simp only [Script.isQuote, Bool.or_eq_true, beq_iff_eq] at h
  rcases h with rfl | rfl
  · rfl
  · rfl

/-- A quoted text ends at the first quote like the one that opens it. -/
theorem quoted_of_closed {c : Char} {content : List Char} (h : c ∉ content) (back : List Char) :
    quoted c (content ++ c :: back) =
      .token (.literal (.text (String.ofList content))) (content.length + 1) := by
  have htake : (content ++ c :: back).takeWhile (· != c) = content :=
    takeWhile_append_of_head (fun d hd => bne_iff_ne.mpr fun he => h (he ▸ hd)) (by simp)
  simp only [quoted, htake, List.contains_append, List.contains_cons, beq_self_eq_true,
    Bool.true_or, Bool.or_true, if_true]

/-- A quote that does not come again is open. -/
theorem quoted_of_open {c : Char} {rest : List Char} (h : c ∉ rest) :
    quoted c rest = .openQuote := by
  simp [quoted, h]

/-- A quote is closed by the next one like it, or never. -/
theorem quoted_cases (c : Char) (rest : List Char) :
    (c ∉ rest ∧ quoted c rest = .openQuote) ∨
      ∃ content back, rest = content ++ c :: back ∧ c ∉ content ∧
        quoted c rest = .token (.literal (.text (String.ofList content))) (content.length + 1) ∧
        rest.drop (content.length + 1) = back := by
  by_cases hc : c ∈ rest
  · obtain ⟨content, back, rfl, hfree⟩ := List.eq_append_cons_of_mem hc
    refine .inr ⟨content, back, rfl, hfree, quoted_of_closed hfree back, ?_⟩
    rw [← List.drop_drop, List.drop_left]
    rfl
  · exact .inl ⟨hc, quoted_of_open hc⟩

/-- In front of the closing quote there is no other one. -/
theorem not_mem_of_quoted {quote d : Char} {content front behind : List Char}
    (h : quote ∉ content) (hs : content ++ [quote] = front ++ d :: behind) : quote ∉ front := by
  rcases List.append_eq_append_iff.mp hs with ⟨between, rfl, hrest⟩ | ⟨between, rfl, hrest⟩
  · cases between with
    | nil => rwa [List.append_nil]
    | cons e between =>
      have hlength := congrArg List.length hrest
      simp at hlength
  · exact fun hm => h (List.mem_append_left _ hm)

/-- A numeral goes as far as digits and points go. -/
theorem more_number (c : Char) (rest : List Char) :
    (number c rest).more = (rest.takeWhile isNumeral).length := by
  rcases number_cases c rest with ⟨n, _, _, hn⟩ | ⟨_, hn⟩
  · rw [hn, more]
  · rw [hn, more]

/-- The front of a text as long as its characters of a class is made of these. -/
theorem take_length_takeWhile (p : Char → Bool) (text : List Char) :
    text.take (text.takeWhile p).length = text.takeWhile p := by
  calc text.take (text.takeWhile p).length
      = (text.takeWhile p ++ text.dropWhile p).take (text.takeWhile p).length := by
        rw [List.takeWhile_append_dropWhile]
    _ = text.takeWhile p := List.take_left

/-- A sign is a token or nothing. -/
theorem sign_cases (c : Char) (next : Option Char) :
    sign c next = .stray ∨ ∃ token more, sign c next = .token token more := by
  cases hs : sign c next with
  | token token more => exact .inr ⟨token, more, rfl⟩
  | stray => exact .inl rfl
  | badNumber more =>
    unfold sign at hs
    repeat' split at hs
    all_goals cases hs
  | openQuote =>
    unfold sign at hs
    repeat' split at hs
    all_goals cases hs

/-- A sign is a single character, or two of which the second is an equals sign. -/
theorem more_sign (c : Char) (next : Option Char) :
    (sign c next).more = 0 ∨ ((sign c next).more = 1 ∧ next = some '=') := by
  rcases sign_cases c next with hs | ⟨token, more, hs⟩
  · exact .inl (congrArg Lexeme.more hs)
  · rw [hs]
    exact sign_more hs

/-- What goes on a numeral or a word means nothing to the splitter, and is no dollar
sign. -/
theorem isInert_of_isNumeral_or {d : Char} (h : isNumeral d = true ∨ isWordPart d = true) :
    Script.isInert d = true ∧ d ≠ '$' := by
  rcases h with h | h
  · refine ⟨isInert_of_isNumeral h, ?_⟩
    rintro rfl
    cases h
  · refine ⟨isInert_of_isWordPart h, ?_⟩
    rintro rfl
    cases h

/-- Something unquoted goes as far as the characters of a class go, if it does not end
with its first character or with an equals sign behind that. -/
theorem more_read {c : Char} (hc : Script.isQuote c = false) (rest : List Char) :
    (∃ p : Char → Bool, (∀ d, p d = true → Script.isInert d = true ∧ d ≠ '$') ∧
      (read c rest).more = (rest.takeWhile p).length) ∨
    (read c rest).more = 0 ∨ (read c rest).more = 1 ∧ rest.head? = some '=' := by
  have hquote : ¬ (c == '\'' || c == '"') = true := by
    rw [Bool.not_eq_true]
    exact hc
  unfold read
  split
  next => exact .inl ⟨isNumeral, fun d hd => isInert_of_isNumeral_or (.inl hd), more_number c rest⟩
  next =>
    split
    next => exact .inl ⟨isWordPart, fun d hd => isInert_of_isNumeral_or (.inr hd), rfl⟩
    next => exact .inr (more_sign c rest.head?)

/-- Behind the first character of something unquoted stand only characters that mean
nothing to the splitter, and no dollar signs. -/
theorem isInert_of_read {c : Char} (hc : Script.isQuote c = false) (rest : List Char) :
    ∀ d ∈ rest.take (read c rest).more, Script.isInert d = true ∧ d ≠ '$' := by
  intro d hd
  obtain ⟨p, hp, hmore⟩ | hmore | ⟨hmore, hnext⟩ := more_read hc rest
  · rw [hmore, take_length_takeWhile] at hd
    exact hp d (List.mem_takeWhile_imp hd)
  · simp [hmore] at hd
  · obtain ⟨more, rfl⟩ := List.head?_eq_some_iff.mp hnext
    rw [hmore] at hd
    obtain rfl : d = '=' := by simpa using hd
    decide

/-- No more characters belong to it than there are. -/
theorem more_read_le {c : Char} (hc : Script.isQuote c = false) (rest : List Char) :
    (read c rest).more ≤ rest.length := by
  obtain ⟨p, _, hmore⟩ | hmore | ⟨hmore, hnext⟩ := more_read hc rest
  · rw [hmore]
    exact (List.takeWhile_sublist p).length_le
  · omega
  · obtain ⟨more, rfl⟩ := List.head?_eq_some_iff.mp hnext
    simp [hmore]

/-! ## The next character -/

/-- Two texts begin alike if they have the same first character, those that begin with
whitespace and the empty text counting as one. -/
def Alike (left right : List Char) : Prop :=
  left.head?.filter (fun c => !Text.isWhitespace c) =
    right.head?.filter (fun c => !Text.isWhitespace c)

/-- Of two texts that begin alike a class without whitespace has both first characters or
neither. -/
theorem Alike.any {left right : List Char} (h : Alike left right) {p : Char → Bool}
    (hp : ∀ c, Text.isWhitespace c = true → p c = false) :
    left.head?.any p = right.head?.any p := by
  have hsame (next : Option Char) :
      (next.filter fun c => !Text.isWhitespace c).any p = next.any p := by
    cases next with
    | none => rfl
    | some c =>
      by_cases hc : Text.isWhitespace c = true
      · simp [Option.filter, hc, hp c hc]
      · simp [Option.filter, hc]
  rw [← hsame left.head?, h, hsame]

/-- Texts that begin alike do so behind the same front. -/
theorem Alike.append {left right : List Char} (h : Alike left right) (front : List Char) :
    Alike (front ++ left) (front ++ right) := by
  cases front with
  | nil => exact h
  | cons c front => rfl

/-- No inert character is whitespace. -/
theorem eq_false_of_isWhitespace {p : Char → Bool}
    (hp : ∀ c, p c = true → Script.isInert c = true) (c : Char)
    (h : Text.isWhitespace c = true) : p c = false := by
  refine Bool.eq_false_iff.mpr fun hc => ?_
  rw [Script.isWhitespace_of_isInert (hp c hc)] at h
  cases h

/-- A run of a class that is as long as the front of a text is the front, and no character of
the class follows it. -/
theorem takeWhile_stops {p : Char → Bool} {front back : List Char}
    (h : ((front ++ back).takeWhile p).length = front.length) :
    (∀ c ∈ front, p c = true) ∧ back.head?.any p = false := by
  have hfront : (front ++ back).takeWhile p = front := by
    rw [← take_length_takeWhile, h, List.take_left]
  have hall : ∀ c ∈ front, p c = true := fun c hc => List.mem_takeWhile_imp (hfront.symm ▸ hc)
  refine ⟨hall, ?_⟩
  cases back with
  | nil => rfl
  | cons d back =>
    rw [List.takeWhile_append_of_pos hall, List.append_right_eq_self] at hfront
    by_contra hd
    rw [Bool.not_eq_false, List.head?_cons, Option.any_some] at hd
    rw [List.takeWhile_cons_of_pos hd] at hfront
    cases hfront

/-- Where no character of the class follows, the run is the front. -/
theorem takeWhile_of_stops {p : Char → Bool} {front back : List Char}
    (hall : ∀ c ∈ front, p c = true) (hback : back.head?.any p = false) :
    (front ++ back).takeWhile p = front :=
  takeWhile_append_of_head hall fun d hd => by
    rwa [Option.mem_def.mp hd, Option.any_some] at hback

/-- As far as the characters of a class go, it does not matter what follows as long as
it begins alike. -/
theorem takeWhile_congr {p : Char → Bool} (hp : ∀ c, p c = true → Script.isInert c = true)
    {front back other : List Char} (h : ((front ++ back).takeWhile p).length = front.length)
    (ha : Alike back other) : (front ++ other).takeWhile p = (front ++ back).takeWhile p := by
  obtain ⟨hall, hback⟩ := takeWhile_stops h
  rw [takeWhile_of_stops hall hback]
  rw [ha.any (eq_false_of_isWhitespace hp)] at hback
  exact takeWhile_of_stops hall hback

/-- Something unquoted is read as the same if what follows it begins alike. -/
theorem read_congr {c : Char} (hc : Script.isQuote c = false) {front back other : List Char}
    (h : (read c (front ++ back)).more = front.length) (ha : Alike back other) :
    read c (front ++ other) = read c (front ++ back) := by
  have hdigit := (ha.append front).any
    (eq_false_of_isWhitespace fun _ hd => isInert_of_isWordPart (isWordPart_of_isDigit hd))
  have hquote : (c == '\'' || c == '"') = false := hc
  have hnumber (rest : List Char)
      (hn : (c.isDigit || (c == '-' && rest.head?.any Char.isDigit)) = true) :
      read c rest = number c rest := if_pos hn
  have hplain (rest : List Char)
      (hn : ¬ (c.isDigit || (c == '-' && rest.head?.any Char.isDigit)) = true) :
      read c rest = if Text.isAlphabetic c then word c rest else sign c rest.head? := by
    rw [read, if_neg hn, if_neg (by simp [hquote])]
  by_cases hn : (c.isDigit || (c == '-' && (front ++ back).head?.any Char.isDigit)) = true
  · rw [hnumber _ hn, more_number] at h
    rw [hnumber _ hn, hnumber _ (hdigit ▸ hn), number, number,
      takeWhile_congr (fun _ => isInert_of_isNumeral) h ha]
  · rw [hplain _ hn] at h ⊢
    rw [hplain _ (hdigit ▸ hn)]
    by_cases hw : Text.isAlphabetic c = true
    · rw [if_pos hw] at h
      rw [if_pos hw, if_pos hw, word, word, takeWhile_congr (fun _ => isInert_of_isWordPart) h ha]
    · rw [if_neg hw, if_neg hw]
      have hequal := (ha.append front).any (p := (· == '='))
        (fun d hd => by simpa using (Text.ne_of_isWhitespace hd).2.2.2.2.2.2.1)
      refine sign_congr c ?_
      simpa [Option.any_eq_true] using (Bool.eq_iff_iff.mp hequal).symm

/-- What a token begins with is no semicolon and no dollar sign, and a dash only if
the token is a minus sign or goes on. -/
theorem front_of_read {c : Char} {rest : List Char} {token : Token} {more : Nat}
    (h : read c rest = .token token more) :
    c ≠ ';' ∧ c ≠ '$' ∧ (c = '-' → token = .operator .minus ∨ rest.head?.any Char.isDigit) := by
  refine ⟨?_, ?_, ?_⟩
  · rintro rfl
    cases h
  · rintro rfl
    cases h
  · rintro rfl
    by_cases hdigit : rest.head?.any Char.isDigit = true
    · exact .inr hdigit
    · have hminus : read '-' rest = .token (.operator .minus) 0 := by
        rw [read, if_neg (by simpa using hdigit)]
        rfl
      rw [hminus] at h
      cases h
      exact .inl rfl

end Lexeme

end EmbeddedSql.Sql
