import EmbeddedSql.Proofs.Sql.Lexemes
import EmbeddedSql.Proofs.Text.Cutting

/-!
# The lexer by bytes

The lexer goes on by characters, while the places in its errors are counts of bytes. Here it
goes on by bytes: it searches for the byte at which a token ends, cuts its text there and goes
on behind the cut. It does the same as the lexer that goes on by characters, which means that
none of its cuts is beyond the end of the text or inside a character.
-/

namespace EmbeddedSql.Sql.Lexer

open Text.Utf8 (cut? offset? size)

/-! ## Steps by bytes -/

/-- The lexer so many bytes further on. -/
def advanceBytes? (lexer : Lexer) (count : Nat) : Option Lexer := do
  let (_, rest) ← cut? lexer.rest count
  some ⟨lexer.whole, rest, lexer.position + count⟩

/-- The lexer behind the whitespace at its place. -/
def skipBytes? (lexer : Lexer) : Option Lexer :=
  lexer.advanceBytes? ((offset? (fun c => !Text.isWhitespace c) lexer.rest).getD (size lexer.rest))

/-- Yields a token that takes up so many bytes. -/
def emitBytes? (lexer : Lexer) (token : Token) (count : Nat) :
    Option (Except LexicalError Token × Lexer) := do
  let behind ← lexer.advanceBytes? count
  some (.ok token, behind)

/-- Reads a numeral. The search for its end begins behind the sign. -/
def numberBytes? (lexer : Lexer) : Option (Except LexicalError Token × Lexer) := do
  let sign := if lexer.rest.head? = some '-' then 1 else 0
  let (_, unsigned) ← cut? lexer.rest sign
  let count :=
    ((offset? (fun c => !Lexeme.isNumeral c) unsigned).map (· + sign)).getD (size lexer.rest)
  let (text, _) ← cut? lexer.rest count
  match (Binary64.ofText? text).filter Binary64.isFinite with
  | some n => lexer.emitBytes? (.literal (.number n)) count
  | none => some (.error (.invalidNumber (String.ofList text) ⟨lexer.position, count⟩), lexer.fuse)

/-- Reads a quoted text. The search for the closing quote begins behind the opening one. -/
def quotedBytes? (lexer : Lexer) (quote : Char) : Option (Except LexicalError Token × Lexer) := do
  let (_, inner) ← cut? lexer.rest 1
  match offset? (· == quote) inner with
  | none =>
    some (.error (.unterminatedString ⟨lexer.position, size lexer.rest⟩), lexer.fuse)
  | some count =>
    let (front, _) ← cut? lexer.rest (count + 1)
    let (_, content) ← cut? front 1
    lexer.emitBytes? (.literal (.text (String.ofList content))) (count + 2)

/-- Reads a word. -/
def wordBytes? (lexer : Lexer) : Option (Except LexicalError Token × Lexer) := do
  let count := (offset? (fun c => !Lexeme.isWordPart c) lexer.rest).getD (size lexer.rest)
  let (word, _) ← cut? lexer.rest count
  lexer.emitBytes? (.ofWord (String.ofList word)) count

/-- Reads the next token or the error in its place, and the lexer behind it, going on by bytes.
The result is none if a cut would be beyond the end of the text or inside a character. -/
def nextBytes? (lexer : Lexer) : Option (Option (Except LexicalError Token × Lexer)) := do
  let here ← lexer.skipBytes?
  match here.rest with
  | [] => some none
  | first :: rest =>
    if first.isDigit || (first == '-' && rest.head?.any Char.isDigit) then
      here.numberBytes?.map some
    else if first == '\'' || first == '"' then (here.quotedBytes? first).map some
    else if Text.isAlphabetic first then here.wordBytes?.map some
    else
      match Lexeme.sign first rest.head? with
      | .token token more => (here.emitBytes? token (more + 1)).map some
      | _ =>
        some (some (.error (.unexpectedCharacter first ⟨here.position, first.utf8Size⟩),
          here.fuse))

/-! ## Cuts between characters -/

variable {lexer : Lexer} {first : Char} {rest : List Char}

/-- As many bytes as a front of the text has are as many characters as it has. -/
theorem advanceBytes?_size {front back : List Char} (h : lexer.rest = front ++ back) :
    lexer.advanceBytes? (size front) = some (lexer.advance front.length) := by
  rw [advanceBytes?, advance, h, Text.Utf8.cut?_append, List.drop_left, List.take_left]
  rfl

/-- A token with as many bytes as a front of the text takes up the characters of the front. -/
theorem emitBytes?_size {front back : List Char} (h : lexer.rest = front ++ back)
    (token : Token) :
    lexer.emitBytes? token (size front) = some (.ok token, lexer.advance front.length) := by
  rw [emitBytes?, advanceBytes?_size h]
  rfl

/-- Skipping whitespace by bytes is skipping it by characters. -/
theorem skipBytes?_eq (lexer : Lexer) : lexer.skipBytes? = some lexer.skipWhitespace := by
  rw [skipBytes?, Text.Utf8.offset?_not_getD, skipWhitespace]
  exact advanceBytes?_size (List.takeWhile_append_dropWhile).symm

/-! ## The same step -/

/-- What the lexer gives for what begins at its place. -/
def yieldAt (lexer : Lexer) (first : Char) (rest : List Char) :
    Lexeme → Except LexicalError Token × Lexer
  | .token token more => (.ok token, lexer.advance (more + 1))
  | .stray =>
    (.error (.unexpectedCharacter first ⟨lexer.position, first.utf8Size⟩), lexer.fuse)
  | .badNumber more =>
    (.error (.invalidNumber (String.ofList (first :: rest.take more))
      ⟨lexer.position, size (first :: rest.take more)⟩), lexer.fuse)
  | .openQuote =>
    (.error (.unterminatedString ⟨lexer.position, size (first :: rest)⟩), lexer.fuse)

/-- The next step skips whitespace and yields what is read at the first character behind it, if
there is one. -/
theorem next?_eq (lexer : Lexer) :
    lexer.next? = match lexer.skipWhitespace.rest with
      | [] => none
      | first :: rest =>
        some (lexer.skipWhitespace.yieldAt first rest (Lexeme.read first rest)) := by
  rw [next?]
  cases lexer.skipWhitespace.rest with
  | nil => rfl
  | cons first rest =>
    cases hread : Lexeme.read first rest <;> simp only [hread, yieldAt]

/-- A word is read the same by bytes as by characters. -/
theorem wordBytes?_eq (h : lexer.rest = first :: rest)
    (hfirst : Text.isAlphabetic first = true) :
    lexer.wordBytes? = some (lexer.yieldAt first rest (Lexeme.word first rest)) := by
  have hword : lexer.rest.takeWhile Lexeme.isWordPart =
      first :: rest.takeWhile Lexeme.isWordPart := by
    rw [h, List.takeWhile_cons_of_pos (isWordPart_of_isAlphabetic hfirst)]
  have hsplit : lexer.rest = (first :: rest.takeWhile Lexeme.isWordPart) ++
      rest.dropWhile Lexeme.isWordPart := by
    rw [h, List.cons_append, List.takeWhile_append_dropWhile]
  have hcut : cut? lexer.rest (size (first :: rest.takeWhile Lexeme.isWordPart)) =
      some (first :: rest.takeWhile Lexeme.isWordPart, rest.dropWhile Lexeme.isWordPart) := by
    rw [hsplit, Text.Utf8.cut?_append]
  rw [wordBytes?, Text.Utf8.offset?_not_getD, hword]
  simp only [hcut, Option.bind_eq_bind, Option.bind_some, emitBytes?_size hsplit]
  rfl

/-- A quoted text is read the same by bytes as by characters, whether it is closed or not. -/
theorem quotedBytes?_eq (h : lexer.rest = first :: rest) (hfirst : Script.isQuote first = true) :
    lexer.quotedBytes? first = some (lexer.yieldAt first rest (Lexeme.quoted first rest)) := by
  -- Both quotes have one byte, so the bytes up to the closing one are counted right.
  have hone : size [first] = 1 := by
    simp only [Script.isQuote, Bool.or_eq_true, beq_iff_eq] at hfirst
    rcases hfirst with rfl | rfl
    · rfl
    · rfl
  have hopening (text : List Char) : cut? (first :: text) 1 = some ([first], text) := by
    rw [← hone]
    exact Text.Utf8.cut?_append [first] text
  rw [quotedBytes?, h, hopening]
  rcases Lexeme.quoted_cases first rest with
    ⟨hfree, hopen⟩ | ⟨content, back, rfl, hfree, hclosed, -⟩
  · have hnone : offset? (· == first) rest = none :=
      Text.Utf8.offset?_of_forall fun c hc => beq_false_of_ne (ne_of_mem_of_not_mem hc hfree)
    rw [hopen, yieldAt]
    simp only [Option.bind_eq_bind, Option.bind_some, hnone]
  · have hfound : offset? (· == first) (content ++ first :: back) = some (size content) :=
      Text.Utf8.offset?_append_cons (fun c hc => beq_false_of_ne (ne_of_mem_of_not_mem hc hfree))
        BEq.rfl back
    have hfront : cut? (first :: (content ++ first :: back)) (size content + 1) =
        some (first :: content, first :: back) := by
      have hsize : size (first :: content) = size content + 1 := by
        rw [← hone, Nat.add_comm, ← Text.Utf8.size_append, List.singleton_append]
      rw [← hsize]
      exact Text.Utf8.cut?_append (first :: content) (first :: back)
    have hrest : lexer.rest = (first :: content ++ [first]) ++ back := by rw [h]; simp
    have hemit := emitBytes?_size hrest (.literal (.text (String.ofList content)))
    have hsize : size (first :: content ++ [first]) = size content + 2 := by
      rw [Text.Utf8.size_append, hone, ← List.singleton_append, Text.Utf8.size_append, hone]
      omega
    rw [hsize] at hemit
    rw [hclosed, yieldAt]
    simp only [Option.bind_eq_bind, Option.bind_some, hfound, hfront, hopening, hemit]
    simp

/-- The search for the end of a numeral comes to it with the sign and without one. -/
theorem numeral_count (hfirst : first.isDigit = true ∨ first = '-') :
    ∃ sign unsigned, (if (first :: rest).head? = some '-' then 1 else 0) = sign ∧
      cut? (first :: rest) sign = some unsigned ∧
      ((offset? (fun c => !Lexeme.isNumeral c) unsigned.2).map (· + sign)).getD
        (size (first :: rest)) = size (first :: rest.takeWhile Lexeme.isNumeral) := by
  have hsearch := Text.Utf8.offset?_not_getD Lexeme.isNumeral
  rcases hfirst with hdigit | rfl
  · have hne : first ≠ '-' := by
      rintro rfl
      cases hdigit
    have hnumeral : Lexeme.isNumeral first = true := by simp [Lexeme.isNumeral, hdigit]
    refine ⟨0, ([], first :: rest), if_neg (by simpa using hne), rfl, ?_⟩
    have hcount := hsearch (first :: rest)
    rw [List.takeWhile_cons_of_pos hnumeral] at hcount
    simpa using hcount
  · refine ⟨1, (['-'], rest), rfl, Text.Utf8.cut?_append ['-'] rest, ?_⟩
    have hone : '-'.utf8Size = 1 := rfl
    have hcount := hsearch rest
    rw [size, size, hone, ← hcount]
    cases offset? (fun c => !Lexeme.isNumeral c) rest with
    | none => rfl
    | some count => exact Nat.add_comm count 1

/-- A numeral is read the same by bytes as by characters, whatever its value is. -/
theorem numberBytes?_eq (h : lexer.rest = first :: rest)
    (hfirst : first.isDigit = true ∨ first = '-') :
    lexer.numberBytes? = some (lexer.yieldAt first rest (Lexeme.number first rest)) := by
  obtain ⟨sign, unsigned, hsign, hunsigned, hcount⟩ := @numeral_count first rest hfirst
  have hsplit : lexer.rest = (first :: rest.takeWhile Lexeme.isNumeral) ++
      rest.dropWhile Lexeme.isNumeral := by
    rw [h, List.cons_append, List.takeWhile_append_dropWhile]
  have hcut : cut? (first :: rest) (size (first :: rest.takeWhile Lexeme.isNumeral)) =
      some (first :: rest.takeWhile Lexeme.isNumeral, rest.dropWhile Lexeme.isNumeral) := by
    rw [← h, hsplit, Text.Utf8.cut?_append]
  rw [numberBytes?, h]
  simp only [hsign, hunsigned, Option.bind_eq_bind, Option.bind_some, hcount, hcut]
  have hbad : (Except.error (LexicalError.invalidNumber
        (String.ofList (first :: rest.takeWhile Lexeme.isNumeral))
        ⟨lexer.position, size (first :: rest.takeWhile Lexeme.isNumeral)⟩), lexer.fuse) =
      lexer.yieldAt first rest (.badNumber (rest.takeWhile Lexeme.isNumeral).length) := by
    rw [yieldAt, Lexeme.take_length_takeWhile]
  rcases Lexeme.number_cases first rest with ⟨n, hvalue, hfinite, hn⟩ | ⟨hvalue, hn⟩
  · rw [hn, hvalue]
    simp only [Option.filter_some, hfinite, if_true, emitBytes?_size hsplit]
    rfl
  · rw [hn]
    simp only [hvalue, hbad]

/-- The characters of an operator or a symbol have one byte each. -/
theorem size_of_sign {token : Token} {more : Nat}
    (h : Lexeme.sign first rest.head? = .token token more) :
    ∃ front back, first :: rest = front ++ back ∧ front.length = more + 1 ∧
      size front = more + 1 := by
  have hfirst : first.utf8Size = 1 := by
    unfold Lexeme.sign at h
    split at h
    all_goals first | rfl | cases h
  rcases sign_more h with rfl | ⟨rfl, hnext⟩
  · refine ⟨[first], rest, rfl, rfl, ?_⟩
    rw [size, hfirst, size]
  · obtain ⟨back, rfl⟩ := List.head?_eq_some_iff.mp hnext
    refine ⟨[first, '='], back, rfl, rfl, ?_⟩
    rw [size, hfirst]
    rfl

/-- An operator or a symbol is read the same by bytes as by characters, and so is a character
that is neither. -/
theorem signBytes_eq (h : lexer.rest = first :: rest) :
    (match Lexeme.sign first rest.head? with
      | .token token more => (lexer.emitBytes? token (more + 1)).map some
      | _ =>
        some (some (.error (.unexpectedCharacter first ⟨lexer.position, first.utf8Size⟩),
          lexer.fuse))) =
      some (some (lexer.yieldAt first rest (Lexeme.sign first rest.head?))) := by
  rcases Lexeme.sign_cases first rest.head? with hs | ⟨token, more, hs⟩
  · rw [hs]
    rfl
  · obtain ⟨front, back, hsplit, hlength, hsize⟩ := size_of_sign hs
    have hemit := emitBytes?_size (h.trans hsplit) token
    rw [hsize, hlength] at hemit
    simp only [hs, hemit, Option.map_some]
    rfl

/-- The lexer that goes on by bytes does the same as the one that goes on by characters, so
each of its cuts is inside the text and between two characters. -/
theorem nextBytes?_eq (lexer : Lexer) : lexer.nextBytes? = some lexer.next? := by
  rw [nextBytes?, skipBytes?_eq, next?_eq]
  simp only [Option.bind_eq_bind, Option.bind_some]
  cases hrest : lexer.skipWhitespace.rest with
  | nil => rfl
  | cons first rest =>
    simp only [Lexeme.read]
    split
    next hnumber =>
      have hfirst : first.isDigit = true ∨ first = '-' := by
        simp only [Bool.or_eq_true, Bool.and_eq_true, beq_iff_eq] at hnumber
        exact hnumber.imp_right And.left
      rw [numberBytes?_eq hrest hfirst, Option.map_some]
    next =>
      split
      next hquote => rw [quotedBytes?_eq hrest hquote, Option.map_some]
      next =>
        split
        next hletter => rw [wordBytes?_eq hrest hletter, Option.map_some]
        next => exact signBytes_eq hrest

end EmbeddedSql.Sql.Lexer
