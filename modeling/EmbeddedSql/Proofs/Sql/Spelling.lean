import EmbeddedSql.Proofs.Number.ReadingBack
import EmbeddedSql.Proofs.Sql.Scanning
import EmbeddedSql.Proofs.Sql.Splitting

/-!
# The spellings of tokens

A token can be spelled in several ways: reserved words in any mix of cases, a
text in either quote that it does not hold. Every spelling stands by itself in a
script, and the lexer reads it as its token as long as the next character does
not run together with it.
-/

namespace EmbeddedSql.Sql

/-! ## Neighbours -/

/-- Whether a word directly behind the character may run together with it. -/
def joins (c : Char) : Bool :=
  Lexeme.isWordPart c || c == '.' || c == '-'

/-- Whether the character, directly behind a word, may run together with it. -/
def goesOn (c : Char) : Bool :=
  Lexeme.isWordPart c || c == '.'

/-- Nothing runs together with whitespace in front of it. -/
theorem joins_of_isWhitespace {c : Char} (h : Text.isWhitespace c = true) : joins c = false := by
  have hne := Text.ne_of_isWhitespace h
  simp [joins, Lexeme.isWordPart, Text.isAlphanumeric_of_isWhitespace h, hne]

/-- Whitespace is no quote. -/
theorem isQuote_of_isWhitespace {c : Char} (h : Text.isWhitespace c = true) :
    Script.isQuote c = false := by
  have hne := Text.ne_of_isWhitespace h
  simp [Script.isQuote, hne]

/-- A word goes on with a letter. -/
theorem isWordPart_of_isAlphabetic {c : Char} (h : Text.isAlphabetic c = true) :
    Lexeme.isWordPart c = true := by
  simp [Lexeme.isWordPart, Text.isAlphanumeric, h]

/-- A word goes on with a digit. -/
theorem isWordPart_of_isDigit {c : Char} (h : c.isDigit = true) : Lexeme.isWordPart c = true := by
  simp [Lexeme.isWordPart, Text.isAlphanumeric_of_isDigit h]

/-- What can go on a word means nothing to the splitter, and joins. -/
theorem isInert_of_isWordPart {c : Char} (h : Lexeme.isWordPart c = true) :
    Script.isInert c = true := by
  have hquote : c ≠ '\'' ∧ c ≠ '"' ∧ c ≠ '-' ∧ c ≠ ';' := by
    refine ⟨?_, ?_, ?_, ?_⟩
    all_goals
      rintro rfl
      exact absurd h (by decide)
  have hspace : Text.isWhitespace c = false := by
    refine Bool.eq_false_iff.mpr fun hw => ?_
    have hne := Text.ne_of_isWhitespace hw
    simp [Lexeme.isWordPart, Text.isAlphanumeric_of_isWhitespace hw, hne] at h
  simp [Script.isInert, Script.isQuote, hquote, hspace]

/-- What goes on a numeral means nothing to the splitter. -/
theorem isInert_of_isNumeral {c : Char} (h : Lexeme.isNumeral c = true) :
    Script.isInert c = true := by
  simp only [Lexeme.isNumeral, Bool.or_eq_true, beq_iff_eq] at h
  rcases h with h | rfl
  · exact isInert_of_isWordPart (isWordPart_of_isDigit h)
  · decide

/-- An inert character is no quote. -/
theorem isQuote_of_isInert {c : Char} (h : Script.isInert c = true) : Script.isQuote c = false := by
  simp only [Script.isInert, Bool.and_eq_true, Bool.not_eq_true'] at h
  exact h.1.1.1

/-- What goes on a word may run together with what is behind it, and is no quote. -/
theorem joins_of_isWordPart {c : Char} (h : Lexeme.isWordPart c = true) :
    joins c = true ∧ Script.isQuote c = false :=
  ⟨by simp [joins, h], isQuote_of_isInert (isInert_of_isWordPart h)⟩

/-- What goes on a numeral may run together with what is behind it, and is no quote. -/
theorem joins_of_isNumeral {c : Char} (h : Lexeme.isNumeral c = true) :
    joins c = true ∧ Script.isQuote c = false := by
  refine ⟨?_, isQuote_of_isInert (isInert_of_isNumeral h)⟩
  simp only [Lexeme.isNumeral, Bool.or_eq_true, beq_iff_eq] at h
  rcases h with h | rfl
  · exact (joins_of_isWordPart (isWordPart_of_isDigit h)).1
  · decide

/-! ## Spellings -/

/-- The words that are no names, in upper case. -/
def reservedWords : List String :=
  ["TRUE", "FALSE", "NULL"] ++ Keyword.all.map Keyword.name ++ ColumnType.all.map ColumnType.name

/-- The spellings of a token. -/
inductive Spells : Token → List Char → Prop
  /-- A finite number by its shortest digits. -/
  | number {n : Binary64} (finite : n.isFinite = true) : Spells (.literal (.number n)) n.text
  /-- A text in a quote that it does not hold. -/
  | text {s : String} {quote : Char} (opens : Script.isQuote quote = true)
      (free : quote ∉ s.toList) : Spells (.literal (.text s)) (quote :: s.toList ++ [quote])
  /-- A truth value in any cases. -/
  | boolean {b : Bool} {word : String} (spelled : upperWord word = if b then "TRUE" else "FALSE") :
      Spells (.literal (.boolean b)) word.toList
  /-- Null in any cases. -/
  | null {word : String} (spelled : upperWord word = "NULL") : Spells (.literal .null) word.toList
  /-- A keyword in any cases. -/
  | keyword {k : Keyword} {word : String} (spelled : upperWord word = k.name) :
      Spells (.keyword k) word.toList
  /-- A column type in any cases. -/
  | columnType {t : ColumnType} {word : String} (spelled : upperWord word = t.name) :
      Spells (.columnType t) word.toList
  /-- A name: a letter and then letters, digits and underscores, not reserved. -/
  | identifier {name : String} {first : Char} {rest : List Char}
      (begins : Text.isAlphabetic first = true) (goes : ∀ c ∈ rest, Lexeme.isWordPart c = true)
      (whole : name.toList = first :: rest) (free : upperWord name ∉ reservedWords) :
      Spells (.identifier name) name.toList
  /-- An operator. -/
  | operator (op : Operator) : Spells (.operator op) op.spelling.toList
  /-- A symbol. -/
  | symbol (s : Symbol) : Spells (.symbol s) [s.char]

/-! ## Words -/

/-- A word in upper case has letters only in the places of capitals. -/
theorem isAlpha_of_isUpper_toUpper {c : Char} (h : c.toUpper.isUpper = true) :
    c.isAlpha = true := by
  by_cases hc : c.isLower = true
  · exact Bool.or_eq_true_iff.mpr (.inr hc)
  · have hsame : c.toUpper = c := dif_neg fun hrange =>
      hc (Bool.and_eq_true_iff.mpr ⟨decide_eq_true hrange.1, decide_eq_true hrange.2⟩)
    rw [hsame] at h
    exact Bool.or_eq_true_iff.mpr (.inl h)

/-- Every character of a reserved word is an ASCII letter. -/
theorem isAlpha_of_upperWord {word name : String} (h : upperWord word = name)
    (hname : ∀ c ∈ name.toList, c.isUpper = true) : ∀ c ∈ word.toList, c.isAlpha = true := by
  intro c hc
  have hmem : c.toUpper ∈ name.toList := by
    rw [← h, upperWord, String.toList_ofList]
    exact List.mem_map_of_mem hc
  exact isAlpha_of_isUpper_toUpper (hname _ hmem)

/-- The lexer reads a word up to the first character that cannot go on a word. -/
theorem read?_word {first : Char} {rest : List Char} (hfirst : Text.isAlphabetic first = true)
    (hrest : ∀ c ∈ rest, Lexeme.isWordPart c = true) {back : List Char}
    (hback : ∀ c ∈ back.head?, Lexeme.isWordPart c = false) :
    Token.read? first (rest ++ back) =
      some (.ofWord (String.ofList (first :: rest)), rest.length) := by
  have hdigit := Text.not_isDigit_of_isAlphabetic hfirst
  have hdash : first ≠ '-' := by
    rintro rfl
    exact absurd hfirst (by decide)
  have hsingle : first ≠ '\'' := by
    rintro rfl
    exact absurd hfirst (by decide)
  have hdouble : first ≠ '"' := by
    rintro rfl
    exact absurd hfirst (by decide)
  have htake := takeWhile_append_of_head hrest hback
  simp [Token.read?, Lexeme.read, hdigit, hdash, hsingle, hdouble, hfirst, Lexeme.word, htake]

/-- A reserved word in any cases begins with a letter and goes on with letters. -/
theorem read?_reserved {word name : String} (h : upperWord word = name)
    (hname : ∀ c ∈ name.toList, c.isUpper = true) {first : Char} {rest : List Char}
    (hwhole : word.toList = first :: rest) {back : List Char}
    (hback : ∀ c ∈ back.head?, Lexeme.isWordPart c = false) :
    Token.read? first (rest ++ back) = some (.ofWord word, rest.length) := by
  have halpha := isAlpha_of_upperWord h hname
  rw [hwhole] at halpha
  have hfirst := Text.isAlphabetic_of_isAlpha (halpha first List.mem_cons_self)
  have hrest (c : Char) (hc : c ∈ rest) : Lexeme.isWordPart c = true :=
    isWordPart_of_isAlphabetic
      (Text.isAlphabetic_of_isAlpha (halpha c (List.mem_cons_of_mem first hc)))
  rw [read?_word hfirst hrest hback, ← hwhole, String.ofList_toList]

/-- TRUE and FALSE, in any mix of cases, are read as truth values. -/
theorem ofWord_boolean {b : Bool} {word : String}
    (h : upperWord word = if b then "TRUE" else "FALSE") :
    Token.ofWord word = .literal (.boolean b) := by
  cases b <;> simp [Token.ofWord, literalOfWord?, h]

/-- NULL, in any mix of cases, is read as the null value. -/
theorem ofWord_null {word : String} (h : upperWord word = "NULL") :
    Token.ofWord word = .literal .null := by
  simp [Token.ofWord, literalOfWord?, h]

/-- The name of a keyword, in any mix of cases, is read as the keyword. -/
theorem ofWord_keyword {k : Keyword} {word : String} (h : upperWord word = k.name) :
    Token.ofWord word = .keyword k := by
  have hliteral : literalOfWord? word = none := by
    simp only [literalOfWord?, h]
    cases k <;> rfl
  have hkeyword : Keyword.ofWord? word = some k := by
    simp only [Keyword.ofWord?, h]
    cases k <;> rfl
  simp only [Token.ofWord, hliteral, hkeyword]

/-- The name of a type, in any mix of cases, is read as the type. -/
theorem ofWord_columnType {t : ColumnType} {word : String} (h : upperWord word = t.name) :
    Token.ofWord word = .columnType t := by
  have hliteral : literalOfWord? word = none := by
    simp only [literalOfWord?, h]
    cases t <;> rfl
  have hkeyword : Keyword.ofWord? word = none := by
    simp only [Keyword.ofWord?, h]
    cases t <;> rfl
  have htype : columnTypeOfWord? word = some t := by
    simp only [columnTypeOfWord?, h]
    cases t <;> rfl
  simp only [Token.ofWord, hliteral, hkeyword, htype]

/-- A word that is not reserved is a name. -/
theorem ofWord_identifier {word : String} (h : upperWord word ∉ reservedWords) :
    Token.ofWord word = .identifier word := by
  simp only [reservedWords, List.mem_append, List.mem_cons, List.not_mem_nil, or_false, not_or,
    List.mem_map, not_exists, not_and] at h
  obtain ⟨⟨⟨htrue, hfalse, hnull⟩, hkeyword⟩, htype⟩ := h
  have hliteral : literalOfWord? word = none := by
    simp only [literalOfWord?, if_neg htrue, if_neg hfalse, if_neg hnull]
  have hnokeyword : Keyword.ofWord? word = none := by
    refine List.find?_eq_none.mpr fun k hk he => hkeyword k hk ?_
    exact (beq_iff_eq.mp he).symm
  have hnotype : columnTypeOfWord? word = none := by
    refine List.find?_eq_none.mpr fun t ht he => htype t ht ?_
    exact (beq_iff_eq.mp he).symm
  simp only [Token.ofWord, hliteral, hnokeyword, hnotype]

/-! ## Numbers and texts -/

/-- The lexer reads the digits of a finite number as that number. -/
theorem read?_number {n : Binary64} (h : n.isFinite = true) {first : Char} {rest : List Char}
    (hwhole : n.text = first :: rest) {back : List Char}
    (hback : ∀ c ∈ back.head?, Lexeme.isNumeral c = false) :
    Token.read? first (rest ++ back) = some (.literal (.number n), rest.length) := by
  obtain ⟨digit, more, hdigit, hmore, htext⟩ := Binary64.exists_text h
  have hnumeral (c : Char) (hc : c ∈ digit :: more) : Lexeme.isNumeral c = true := by
    rcases List.mem_cons.mp hc with rfl | hc
    · simp [Lexeme.isNumeral, hdigit]
    · rcases hmore c hc with hd | rfl
      · simp [Lexeme.isNumeral, hd]
      · rfl
  have hsplit : (first.isDigit || (first == '-' && (rest ++ back).head?.any Char.isDigit)) = true ∧
      ∀ c ∈ rest, Lexeme.isNumeral c = true := by
    rw [hwhole] at htext
    rcases htext with htext | htext
    · obtain ⟨rfl, rfl⟩ := List.cons.inj htext
      exact ⟨by simp [hdigit], fun c hc => hnumeral c (List.mem_cons_of_mem first hc)⟩
    · obtain ⟨rfl, rfl⟩ := List.cons.inj htext
      exact ⟨by simp [hdigit], hnumeral⟩
  have htake := takeWhile_append_of_head hsplit.2 hback
  have hread : Binary64.ofText? (first :: rest) = some n := hwhole ▸ Binary64.ofText?_text h
  simp only [Token.read?, Lexeme.read, if_pos hsplit.1, Lexeme.number, htake, hread, h, if_true]

/-- The lexer reads a text in quotes that it does not hold. -/
theorem read?_quoted {quote : Char} (hq : Script.isQuote quote = true) {content : List Char}
    (h : quote ∉ content) (back : List Char) :
    Token.read? quote (content ++ [quote] ++ back) =
      some (.literal (.text (String.ofList content)), (content ++ [quote]).length) := by
  have hopens : quote.isDigit = false ∧ quote ≠ '-' ∧ (quote == '\'' || quote == '"') = true := by
    simp only [Script.isQuote, Bool.or_eq_true, beq_iff_eq] at hq
    rcases hq with rfl | rfl
    · decide
    · decide
  have htake : (content ++ [quote] ++ back).takeWhile (· != quote) = content := by
    have hne (c : Char) (hc : c ∈ content) : (c != quote) = true := by
      rw [bne_iff_ne]
      rintro rfl
      exact h hc
    rw [List.append_assoc, List.takeWhile_append_of_pos hne]
    simp
  have hcontains : (content ++ [quote] ++ back).contains quote = true := by simp
  simp only [Token.read?, Lexeme.read, hopens, beq_false_of_ne hopens.2.1, Bool.false_or,
    Bool.false_and, Bool.false_eq_true, if_false, if_true, Lexeme.quoted, hcontains, htake,
    List.length_append, List.length_singleton]

/-! ## Signs -/

/-- The characters that begin operators and symbols. -/
def signs : List Char :=
  ['=', '!', '<', '>', '+', '-', '*', '/', '(', ')', ',', '.']

/-- The lexer reads a sign by itself and the character behind it, unless that is
a digit behind a minus sign. -/
theorem read?_sign {c : Char} (hc : c ∈ signs) {rest : List Char}
    (hrest : ∀ d ∈ rest.head?, d.isDigit = false) {token : Token} {more : Nat}
    (h : Lexeme.sign c rest.head? = .token token more) :
    Token.read? c rest = some (token, more) := by
  have hclass : signs.all (fun c => !c.isDigit && !(c == '\'' || c == '"') &&
      !Text.isAlphabetic c) = true := by decide
  have hsign := List.all_eq_true.mp hclass c hc
  simp only [Bool.and_eq_true, Bool.not_eq_true'] at hsign
  obtain ⟨⟨hdigit, hquote⟩, halpha⟩ := hsign
  have hnext : rest.head?.any Char.isDigit = false := by
    cases hd : rest.head? with
    | none => rfl
    | some d => exact hrest d hd
  simp only [Token.read?, Lexeme.read, hdigit, hnext, hquote, halpha, Bool.and_false,
    Bool.or_self, Bool.false_eq_true, if_false, h]

/-! ## All tokens -/

/-- A character that goes on nothing goes on no word. -/
theorem not_isWordPart_of_not_goesOn {c : Char} (h : goesOn c = false) :
    Lexeme.isWordPart c = false := by
  simp only [goesOn, Bool.or_eq_false_iff] at h
  exact h.1

/-- A character that goes on nothing goes on no numeral. -/
theorem not_isNumeral_of_not_goesOn {c : Char} (h : goesOn c = false) :
    Lexeme.isNumeral c = false := by
  simp only [goesOn, Bool.or_eq_false_iff] at h
  refine Bool.eq_false_iff.mpr fun hn => ?_
  simp only [Lexeme.isNumeral, Bool.or_eq_true] at hn
  rcases hn with hd | hp
  · rw [isWordPart_of_isDigit hd] at h
    cases h.1
  · rw [hp] at h
    cases h.2

/-- A character that goes on nothing is no digit. -/
theorem not_isDigit_of_not_goesOn {c : Char} (h : goesOn c = false) : c.isDigit = false := by
  have hn := not_isNumeral_of_not_goesOn h
  simp only [Lexeme.isNumeral, Bool.or_eq_false_iff] at hn
  exact hn.1

/-- The names of keywords and column types are in capitals. -/
theorem isUpper_of_mem_name (k : Keyword) : ∀ c ∈ k.name.toList, c.isUpper = true := by
  rw [← List.all_eq_true]
  cases k <;> decide

/-- The names of types are made of capital letters. -/
theorem isUpper_of_mem_typeName (t : ColumnType) : ∀ c ∈ t.name.toList, c.isUpper = true := by
  rw [← List.all_eq_true]
  cases t <;> decide

/-- The names of the truth values are made of capital letters. -/
theorem isUpper_of_mem_boolean (b : Bool) :
    ∀ c ∈ (if b then "TRUE" else "FALSE").toList, c.isUpper = true := by
  rw [← List.all_eq_true]
  cases b <;> decide

/-- The name of the null value is made of capital letters. -/
theorem isUpper_of_mem_null : ∀ c ∈ "NULL".toList, c.isUpper = true := by
  rw [← List.all_eq_true]
  decide

/-- The lexer reads the spelling of a literal as that literal, unless what
follows runs together with it. -/
theorem Spells.read?_literal {v : Value} {first : Char} {rest : List Char}
    (h : Spells (.literal v) (first :: rest)) {back : List Char}
    (hback : ∀ c ∈ back.head?, goesOn c = false) :
    Token.read? first (rest ++ back) = some (.literal v, rest.length) := by
  have hword : ∀ c ∈ back.head?, Lexeme.isWordPart c = false := fun c hc =>
    not_isWordPart_of_not_goesOn (hback c hc)
  generalize ht : first :: rest = text at h
  cases h with
  | number finite =>
    exact read?_number finite ht.symm fun c hc => not_isNumeral_of_not_goesOn (hback c hc)
  | @text s quote opens free =>
    obtain ⟨rfl, rfl⟩ := List.cons.inj ht
    have hread := read?_quoted opens free back
    rwa [String.ofList_toList] at hread
  | @boolean b word spelled =>
    rw [read?_reserved spelled (isUpper_of_mem_boolean b) ht.symm hword, ofWord_boolean spelled]
  | @null word spelled =>
    rw [read?_reserved spelled isUpper_of_mem_null ht.symm hword, ofWord_null spelled]

/-- The lexer reads the spelling of a token as that token, unless what follows
runs together with it. -/
theorem Spells.read? {token : Token} {first : Char} {rest : List Char}
    (h : Spells token (first :: rest)) {back : List Char}
    (hback : ∀ c ∈ back.head?, goesOn c = false ∧ c ≠ '=') :
    Token.read? first (rest ++ back) = some (token, rest.length) := by
  have hgoes : ∀ c ∈ back.head?, goesOn c = false := fun c hc => (hback c hc).1
  have hword : ∀ c ∈ back.head?, Lexeme.isWordPart c = false := fun c hc =>
    not_isWordPart_of_not_goesOn (hgoes c hc)
  cases token with
  | literal v => exact h.read?_literal hgoes
  | keyword k =>
    generalize ht : first :: rest = text at h
    cases h with
    | keyword spelled =>
      rw [read?_reserved spelled (isUpper_of_mem_name k) ht.symm hword, ofWord_keyword spelled]
  | columnType t =>
    generalize ht : first :: rest = text at h
    cases h with
    | columnType spelled =>
      rw [read?_reserved spelled (isUpper_of_mem_typeName t) ht.symm hword,
        ofWord_columnType spelled]
  | identifier name =>
    generalize ht : first :: rest = text at h
    cases h with
    | @identifier _ first' rest' begins goes whole free =>
      obtain ⟨rfl, rfl⟩ := List.cons.inj (ht.trans whole)
      rw [read?_word begins goes hword, ← whole, String.ofList_toList, ofWord_identifier free]
  | operator op =>
    generalize ht : first :: rest = text at h
    cases h with
    | operator =>
      have hnodigit : ∀ c ∈ back.head?, c.isDigit = false := fun c hc =>
        not_isDigit_of_not_goesOn (hgoes c hc)
      have hnoequal : back.head? ≠ some '=' := fun he => (hback '=' he).2 rfl
      have hequal : ∀ c ∈ ('=' :: back).head?, c.isDigit = false := by
        intro c hc
        obtain rfl := Option.some.inj hc
        decide
      -- A sign of one character that begins a longer one needs that no equals sign follows.
      cases op <;> obtain ⟨rfl, rfl⟩ := List.cons.inj ht
      case equal | plus | minus | star | slash => exact read?_sign (by decide) hnodigit rfl
      case notEqual | lessOrEqual | greaterOrEqual => exact read?_sign (by decide) hequal rfl
      case less | greater => exact read?_sign (by decide) hnodigit (if_neg hnoequal)
  | symbol s =>
    generalize ht : first :: rest = text at h
    cases h with
    | symbol =>
      obtain ⟨rfl, rfl⟩ := List.cons.inj ht
      refine read?_sign ?_ ?_ ?_
      · cases s <;> decide
      · exact fun c hc => not_isDigit_of_not_goesOn (hgoes c hc)
      · cases s <;> rfl

/-! ## Spellings in scripts -/

/-- A finite number is written without characters that mean anything to the
splitter, but for the sign in front. -/
theorem exists_isInert_text {n : Binary64} (h : n.isFinite = true) :
    ∃ word, word ≠ [] ∧ (∀ c ∈ word, Script.isInert c = true) ∧
      (n.text = word ∨ n.text = '-' :: word) := by
  obtain ⟨digit, more, hdigit, hmore, htext⟩ := Binary64.exists_text h
  refine ⟨digit :: more, List.cons_ne_nil digit more, fun c hc => isInert_of_isNumeral ?_, htext⟩
  rcases List.mem_cons.mp hc with rfl | hc
  · simp [Lexeme.isNumeral, hdigit]
  · rcases hmore c hc with hd | rfl
    · simp [Lexeme.isNumeral, hd]
    · rfl

/-- A dash in front of inert characters stands by itself with them. -/
theorem standalone_dash {word : List Char} (h : ∀ c ∈ word, Script.isInert c = true) :
    Script.Standalone ('-' :: word) := by
  have hword := Script.piecesFrom_of_isInert h
  have hhead : word.head? ≠ some '-' := by
    intro he
    have hm := h '-' (List.mem_of_mem_head? he)
    exact absurd hm (by decide)
  have hpiece : Script.pieceAt .plain '-' word.head? = some (.char '-') ∧
      Script.Mode.plain.after '-' word.head? = .plain := by
    obtain ⟨_, he, _⟩ | ⟨hc, _⟩ | ⟨hc, _⟩ | hpiece := Script.plain_cases '-' word.head?
    · exact absurd he hhead
    · exact absurd hc (by decide)
    · exact absurd hc (by decide)
    · exact hpiece
  have hspace (c : Char) (hc : c ∈ '-' :: word) : Text.isWhitespace c = false := by
    rcases List.mem_cons.mp hc with rfl | hc
    · decide
    · exact Script.isWhitespace_of_isInert (h c hc)
  refine ⟨?_, ?_, ⟨'-', word, rfl, hspace _ List.mem_cons_self⟩, ?_⟩
  · rw [Script.piecesFrom_cons, hpiece.1, hpiece.2, hword.1]
    rfl
  · rw [Script.modeAfter_cons, hpiece.2, hword.2]
  · exact ⟨('-' :: word).dropLast, ('-' :: word).getLast (by simp),
      (List.dropLast_concat_getLast _).symm, hspace _ (List.getLast_mem _)⟩

/-- A spelling of a name of capital letters, in any mix of cases, is inert. -/
theorem isInert_of_isUpper_name {word name : String} (h : upperWord word = name)
    (hname : ∀ c ∈ name.toList, c.isUpper = true) : ∀ c ∈ word.toList, Script.isInert c = true :=
  fun c hc => isInert_of_isWordPart
    (isWordPart_of_isAlphabetic (Text.isAlphabetic_of_isAlpha (isAlpha_of_upperWord h hname c hc)))

/-- Every spelling stands by itself. -/
theorem Spells.standalone {token : Token} {text : List Char} (h : Spells token text) :
    Script.Standalone text := by
  have hreserved {word name : String} (h : upperWord word = name)
      (hname : ∀ c ∈ name.toList, c.isUpper = true) (hne : name ≠ "") :
      Script.Standalone word.toList := by
    refine Script.standalone_of_isInert (isInert_of_isUpper_name h hname) fun he => hne ?_
    rw [← h, upperWord, he]
    rfl
  cases h with
  | @number n finite =>
    obtain ⟨word, hne, hinert, htext | htext⟩ := exists_isInert_text finite
    · rw [htext]
      exact Script.standalone_of_isInert hinert hne
    · rw [htext]
      exact standalone_dash hinert
  | text opens free => exact Script.standalone_quoted opens free
  | @boolean b word spelled =>
    exact hreserved spelled (isUpper_of_mem_boolean b) (by cases b <;> decide)
  | null spelled => exact hreserved spelled isUpper_of_mem_null (by decide)
  | @keyword k word spelled =>
    exact hreserved spelled (isUpper_of_mem_name k) (by cases k <;> decide)
  | @columnType t word spelled =>
    exact hreserved spelled (isUpper_of_mem_typeName t) (by cases t <;> decide)
  | @identifier name first rest begins goes whole free =>
    rw [whole]
    refine Script.standalone_of_isInert (fun c hc => isInert_of_isWordPart ?_)
      (List.cons_ne_nil first rest)
    rcases List.mem_cons.mp hc with rfl | hc
    · exact isWordPart_of_isAlphabetic begins
    · exact goes c hc
  | operator op =>
    -- The minus sign alone could begin a comment with a dash behind it.
    by_cases hop : op = .minus
    · subst hop
      exact @standalone_dash [] fun c hc => by cases hc
    · refine Script.standalone_of_isInert (List.all_eq_true.mp ?_) ?_
      · revert hop
        cases op <;> decide
      · cases op <;> decide
  | symbol s =>
    refine Script.standalone_of_isInert (List.all_eq_true.mp ?_) (List.cons_ne_nil _ _)
    cases s <;> decide

end EmbeddedSql.Sql
