import EmbeddedSql.Sql.Vocabulary
import EmbeddedSql.Text.Alphabetic
import EmbeddedSql.Text.Utf8
import EmbeddedSql.Text.Whitespace

/-!
# From text to tokens

The lexer walks over a text once. It skips whitespace, reads the longest token
that its first character begins, and goes on behind it; the first character
decides the kind of token, and one more character at most is looked at. An
error names the place in bytes and ends the walk.
-/

namespace EmbeddedSql.Sql

/-- A stretch of a text, in bytes. -/
structure Span where
  /-- Where the stretch begins. -/
  offset : Nat
  /-- How long it is. -/
  length : Nat
  deriving DecidableEq, Repr

/-- Why a text is no sequence of tokens. -/
inductive LexicalError where
  /-- No token begins with this character. -/
  | unexpectedCharacter (character : Char) (span : Span)
  /-- Digits and points that are no finite number. -/
  | invalidNumber (text : String) (span : Span)
  /-- A quoted text that is not closed. -/
  | unterminatedString (span : Span)
  deriving DecidableEq, Repr

/-- What begins at a character that is no whitespace. Lengths count the
characters behind the first one. -/
inductive Lexeme where
  /-- A token that takes up so many more characters. -/
  | token (token : Token) (more : Nat)
  /-- A character that begins no token. -/
  | stray
  /-- A numeral of so many more characters that is no finite number. -/
  | badNumber (more : Nat)
  /-- A quote that is never closed. -/
  | openQuote
  deriving DecidableEq, Repr

namespace Lexeme

/-- Whether a character can stand in a numeral. -/
def isNumeral (c : Char) : Bool :=
  c.isDigit || c == '.'

/-- Whether a character can go on a word. -/
def isWordPart (c : Char) : Bool :=
  Text.isAlphanumeric c || c == '_'

/-- Reads the numeral that begins with a digit or a sign. -/
def number (first : Char) (rest : List Char) : Lexeme :=
  let more := rest.takeWhile isNumeral
  match Binary64.ofText? (first :: more) with
  | some n => if n.isFinite then .token (.literal (.number n)) more.length
    else .badNumber more.length
  | none => .badNumber more.length

/-- Reads the text between a quote and the next one like it. -/
def quoted (quote : Char) (rest : List Char) : Lexeme :=
  if rest.contains quote then
    let content := rest.takeWhile (· != quote)
    .token (.literal (.text (String.ofList content))) (content.length + 1)
  else .openQuote

/-- Reads the word that begins with a letter. -/
def word (first : Char) (rest : List Char) : Lexeme :=
  let more := rest.takeWhile isWordPart
  .token (.ofWord (String.ofList (first :: more))) more.length

/-- Reads an operator or a symbol. -/
def sign (first : Char) (next : Option Char) : Lexeme :=
  match first with
  | '=' => .token (.operator .equal) 0
  | '!' => if next = some '=' then .token (.operator .notEqual) 1 else .stray
  | '<' => if next = some '=' then .token (.operator .lessOrEqual) 1
    else .token (.operator .less) 0
  | '>' => if next = some '=' then .token (.operator .greaterOrEqual) 1
    else .token (.operator .greater) 0
  | '+' => .token (.operator .plus) 0
  | '-' => .token (.operator .minus) 0
  | '*' => .token (.operator .star) 0
  | '/' => .token (.operator .slash) 0
  | '(' => .token (.symbol .leftParen) 0
  | ')' => .token (.symbol .rightParen) 0
  | ',' => .token (.symbol .comma) 0
  | '.' => .token (.symbol .dot) 0
  | _ => .stray

/-- What begins with the given character in front of the given rest. A minus
sign belongs to a number if a digit follows it at once. -/
def read (first : Char) (rest : List Char) : Lexeme :=
  if first.isDigit || (first == '-' && rest.head?.any Char.isDigit) then number first rest
  else if first == '\'' || first == '"' then quoted first rest
  else if Text.isAlphabetic first then word first rest
  else sign first rest.head?

end Lexeme

/-- The lexer's place in a text. -/
structure Lexer where
  /-- The whole text. -/
  whole : List Char
  /-- What has not been read yet. -/
  rest : List Char
  /-- How many bytes have been read. -/
  position : Nat
  deriving DecidableEq, Repr

namespace Lexer

/-- The lexer at the beginning of a text. -/
def start (text : List Char) : Lexer :=
  ⟨text, text, 0⟩

/-- The lexer so many characters further on. -/
def advance (lexer : Lexer) (count : Nat) : Lexer :=
  ⟨lexer.whole, lexer.rest.drop count, lexer.position + Text.Utf8.size (lexer.rest.take count)⟩

/-- The lexer behind the whitespace at its place. -/
def skipWhitespace (lexer : Lexer) : Lexer :=
  lexer.advance (lexer.rest.takeWhile Text.isWhitespace).length

/-- The lexer at the end of its text, where an error leaves it. -/
def fuse (lexer : Lexer) : Lexer :=
  ⟨lexer.whole, [], Text.Utf8.size lexer.whole⟩

/-- Reads the next token or the error in its place, and the lexer behind it;
none at the end of the text. -/
def next? (lexer : Lexer) : Option (Except LexicalError Token × Lexer) :=
  let here := lexer.skipWhitespace
  match here.rest with
  | [] => none
  | first :: rest =>
    match Lexeme.read first rest with
    | .token token more => some (.ok token, here.advance (more + 1))
    | .stray =>
      some (.error (.unexpectedCharacter first ⟨here.position, first.utf8Size⟩), here.fuse)
    | .badNumber more =>
      let text := first :: rest.take more
      some (.error (.invalidNumber (String.ofList text) ⟨here.position, Text.Utf8.size text⟩),
        here.fuse)
    | .openQuote =>
      some (.error (.unterminatedString ⟨here.position, Text.Utf8.size here.rest⟩), here.fuse)

/-- Moving on leaves no more to read. -/
theorem length_advance_le (lexer : Lexer) (count : Nat) :
    (lexer.advance count).rest.length ≤ lexer.rest.length := by
  simp [advance]

/-- Every step leaves less to read. -/
theorem length_lt_of_next? {lexer behind : Lexer} {item : Except LexicalError Token}
    (h : lexer.next? = some (item, behind)) : behind.rest.length < lexer.rest.length := by
  have hs := lexer.length_advance_le (lexer.rest.takeWhile Text.isWhitespace).length
  simp only [next?] at h
  split at h
  · simp at h
  next first rest hr =>
    have hl : (first :: rest).length ≤ lexer.rest.length := by
      simpa [← hr, skipWhitespace] using hs
    simp only [List.length_cons] at hl
    split at h <;> simp only [Option.some.injEq, Prod.mk.injEq] at h <;> obtain ⟨-, rfl⟩ := h
    · simp only [advance, hr, List.drop_succ_cons, List.length_drop]
      omega
    all_goals simp only [fuse, List.length_nil]; omega

/-- All that the lexer yields in at most so many steps. -/
def itemsWithin : Nat → Lexer → List (Except LexicalError Token)
  | 0, _ => []
  | steps + 1, lexer =>
    match lexer.next? with
    | none => []
    | some (item, behind) => item :: itemsWithin steps behind

/-- All that the lexer yields from its place on. Every step reads a character,
so there are no more steps than characters. -/
def items (lexer : Lexer) : List (Except LexicalError Token) :=
  itemsWithin lexer.rest.length lexer

/-- Two bounds that both suffice give the same. -/
theorem itemsWithin_congr {m n : Nat} {lexer : Lexer}
    (hm : lexer.rest.length ≤ m) (hn : lexer.rest.length ≤ n) :
    itemsWithin m lexer = itemsWithin n lexer := by
  induction m generalizing lexer n with
  | zero =>
    have hr : lexer.rest = [] := List.length_eq_zero_iff.1 (by omega)
    cases n <;> simp [itemsWithin, next?, skipWhitespace, advance, hr]
  | succ m ih =>
    cases n with
    | zero =>
      have hr : lexer.rest = [] := List.length_eq_zero_iff.1 (by omega)
      simp [itemsWithin, next?, skipWhitespace, advance, hr]
    | succ n =>
      simp only [itemsWithin]
      split
      · rfl
      next item behind hnext =>
        have hlt := length_lt_of_next? hnext
        rw [@ih n behind (by omega) (by omega)]

/-- What the lexer yields is its next item and what it yields behind that. -/
theorem items_eq (lexer : Lexer) :
    lexer.items = match lexer.next? with
      | none => []
      | some (item, behind) => item :: behind.items := by
  rw [items, itemsWithin_congr (Nat.le_refl _) (Nat.le_succ _), itemsWithin]
  split
  · rfl
  next item behind h =>
    rw [items, itemsWithin_congr (Nat.le_of_lt (length_lt_of_next? h)) (Nat.le_refl _)]

end Lexer

/-- The tokens in front of the first error, and that error if there is one. -/
def collect : List (Except LexicalError Token) → List Token × Option LexicalError
  | [] => ([], none)
  | .ok token :: rest => (token :: (collect rest).1, (collect rest).2)
  | .error error :: _ => ([], some error)

/-- The tokens of a text up to its first error, and that error if there is
one. -/
def lexemes (text : List Char) : List Token × Option LexicalError :=
  collect (Lexer.start text).items

/-- The tokens of a text, or the error at the first place where there is none. -/
def tokenize (text : List Char) : Except LexicalError (List Token) :=
  match lexemes text with
  | (tokens, none) => .ok tokens
  | (_, some error) => .error error

end EmbeddedSql.Sql
