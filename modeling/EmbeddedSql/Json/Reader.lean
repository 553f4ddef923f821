import EmbeddedSql.Json.Basic
import EmbeddedSql.Text.Utf8

/-!
# Reading JSON

The grammar of JSON: one value, blanks around every token, nothing behind it.
The text is given as characters with gaps where its bytes form none. Gaps are
let pass inside strings, which then stand for no text, as do strings with half
of a surrogate pair; whoever needs the text has to refuse them.
-/

namespace EmbeddedSql.Json

/-- A text to be read: characters, and none where there is no character. -/
abbrev Source := List (Option Char)

/-- The characters of a text as a source. -/
def sourceOfText (text : List Char) : Source :=
  text.map some

/-- The characters that bytes stand for as a source. -/
def sourceOfBytes (bytes : List UInt8) : Source :=
  Text.Utf8.decode bytes

namespace Reader

/-- Whether something is a blank: a space, a tab or a line's end. -/
def isBlank (c : Option Char) : Bool :=
  c == some ' ' || c == some '\t' || c == some '\n' || c == some '\r'

/-- The source behind the blanks at its front. -/
def skipBlanks (source : Source) : Source :=
  source.dropWhile isBlank

/-- The source behind the given characters, if it begins with them. -/
def expect : List Char → Source → Option Source
  | [], source => some source
  | c :: more, some d :: rest => if c = d then expect more rest else none
  | _ :: _, _ => none

/-- Whether something is a decimal digit. -/
def isDigit (c : Option Char) : Bool :=
  c.any Char.isDigit

/-- The digits at the front and the source behind them. -/
def digits (source : Source) : List Char × Source :=
  ((source.takeWhile isDigit).filterMap id, source.dropWhile isDigit)

/-- Reads the digits before the point: a single zero, or digits that begin with
none. -/
def whole : Source → Option (Nat × Source)
  | some '0' :: rest => if rest.head?.any isDigit then none else some (0, rest)
  | source =>
    match digits source with
    | ([], _) => none
    | (ds, rest) => some (Decimal.natOfDigits ds, rest)

/-- Reads a point and at least one digit, or nothing. -/
def fraction : Source → Option (List Char × Source)
  | some '.' :: rest =>
    match digits rest with
    | ([], _) => none
    | (ds, rest) => some (ds, rest)
  | source => some ([], source)

/-- Reads a sign, if there is one. -/
def sign : Source → Bool × Source
  | some '-' :: rest => (true, rest)
  | some '+' :: rest => (false, rest)
  | source => (false, source)

/-- Reads an exponent, or nothing. -/
def exponent (source : Source) : Option (Option Int × Source) :=
  match source with
  | some c :: rest =>
    if c = 'e' ∨ c = 'E' then
      let (negative, rest) := sign rest
      match digits rest with
      | ([], _) => none
      | (ds, rest) =>
        let n : Int := Decimal.natOfDigits ds
        some (some (if negative then -n else n), rest)
    else some (none, source)
  | _ => some (none, source)

/-- Reads a number. -/
def number (source : Source) : Option (Numeral × Source) := do
  let (negative, rest) :=
    match source with
    | some '-' :: rest => (true, rest)
    | _ => (false, source)
  let (whole, rest) ← whole rest
  let (fraction, rest) ← fraction rest
  let (exponent, rest) ← exponent rest
  some (⟨negative, whole, fraction, exponent⟩, rest)

/-- What stands in a string. -/
inductive Piece where
  /-- A character. -/
  | char (c : Char)
  /-- Sixteen bits that an escape gives. -/
  | unit (n : Nat)
  /-- Bytes that form no character. -/
  | gap

/-- The value of a digit of base sixteen, in either case. -/
def hexValue? (c : Char) : Option Nat :=
  if '0' ≤ c ∧ c ≤ '9' then some (c.toNat - 48)
  else if 'a' ≤ c ∧ c ≤ 'f' then some (c.toNat - 87)
  else if 'A' ≤ c ∧ c ≤ 'F' then some (c.toNat - 55)
  else none

/-- The number that four digits of base sixteen make. -/
def unit? (a b c d : Char) : Option Nat := do
  let a ← hexValue? a
  let b ← hexValue? b
  let c ← hexValue? c
  let d ← hexValue? d
  some (((a * 16 + b) * 16 + c) * 16 + d)

/-- The character that a backslash makes of the one behind it. -/
def escaped? (c : Char) : Option Char :=
  match c with
  | '"' => some '"'
  | '\\' => some '\\'
  | '/' => some '/'
  | 'b' => some '\x08'
  | 'f' => some '\x0c'
  | 'n' => some '\n'
  | 'r' => some '\r'
  | 't' => some '\t'
  | _ => none

/-- Reads a string behind its opening quote, up to and with the closing one. -/
def pieces : Source → Option (List Piece × Source)
  | some '"' :: rest => some ([], rest)
  | some '\\' :: some 'u' :: some a :: some b :: some c :: some d :: rest => do
    let n ← unit? a b c d
    let (more, rest) ← pieces rest
    some (.unit n :: more, rest)
  | some '\\' :: some c :: rest => do
    let c ← escaped? c
    let (more, rest) ← pieces rest
    some (.char c :: more, rest)
  | some '\\' :: _ => none
  | some c :: rest =>
    if c.toNat < 0x20 then none
    else do
      let (more, rest) ← pieces rest
      some (.char c :: more, rest)
  | none :: rest => do
    let (more, rest) ← pieces rest
    some (.gap :: more, rest)
  | [] => none

/-- Whether sixteen bits are the first half of a surrogate pair. -/
def isHigh (n : Nat) : Bool :=
  0xD800 ≤ n && n < 0xDC00

/-- Whether sixteen bits are the second half of a surrogate pair. -/
def isLow (n : Nat) : Bool :=
  0xDC00 ≤ n && n < 0xE000

/-- The text that pieces stand for: escapes of surrogates count in pairs. -/
def textOfPieces : List Piece → Option (List Char)
  | [] => some []
  | .char c :: rest => (textOfPieces rest).map (c :: ·)
  | .unit high :: .unit low :: rest =>
    if isHigh high then
      if isLow low then
        let c := Char.ofNat (0x10000 + (high - 0xD800) * 0x400 + (low - 0xDC00))
        (textOfPieces rest).map (c :: ·)
      else none
    else if isLow high then none
    else (textOfPieces (.unit low :: rest)).map (Char.ofNat high :: ·)
  | .unit n :: rest =>
    if isHigh n || isLow n then none else (textOfPieces rest).map (Char.ofNat n :: ·)
  | .gap :: _ => none

/-- Reads a string behind its opening quote. -/
def string (source : Source) : Option (Option String × Source) := do
  let (pieces, rest) ← pieces source
  some ((textOfPieces pieces).map String.ofList, rest)

mutual

/-- Reads a value, in at most so many steps down and along. -/
def value : Nat → Source → Option (Json × Source)
  | 0, _ => none
  | steps + 1, source =>
    match skipBlanks source with
    | some 'n' :: rest => (expect "ull".toList rest).map (.null, ·)
    | some 't' :: rest => (expect "rue".toList rest).map (.boolean true, ·)
    | some 'f' :: rest => (expect "alse".toList rest).map (.boolean false, ·)
    | some '"' :: rest => do
      let (s, rest) ← string rest
      some (.string s, rest)
    | some '[' :: rest =>
      match skipBlanks rest with
      | some ']' :: rest => some (.array [], rest)
      | rest => do
        let (items, rest) ← items steps rest
        some (.array items, rest)
    | some '\x7b' :: rest =>
      match skipBlanks rest with
      | some '\x7d' :: rest => some (.object [], rest)
      | rest => do
        let (members, rest) ← members steps rest
        some (.object members, rest)
    | rest => do
      let (n, rest) ← number rest
      some (.number n, rest)

/-- Reads the items of a list, up to and with the closing bracket. -/
def items : Nat → Source → Option (List Json × Source)
  | 0, _ => none
  | steps + 1, source => do
    let (item, rest) ← value steps source
    match skipBlanks rest with
    | some ',' :: rest => do
      let (more, rest) ← items steps rest
      some (item :: more, rest)
    | some ']' :: rest => some ([item], rest)
    | _ => none

/-- Reads the members of an object, up to and with the closing bracket. -/
def members : Nat → Source → Option (List (Option String × Json) × Source)
  | 0, _ => none
  | steps + 1, source =>
    match skipBlanks source with
    | some '"' :: rest => do
      let (name, rest) ← string rest
      match skipBlanks rest with
      | some ':' :: rest => do
        let (item, rest) ← value steps rest
        match skipBlanks rest with
        | some ',' :: rest => do
          let (more, rest) ← members steps rest
          some ((name, item) :: more, rest)
        | some '\x7d' :: rest => some ([(name, item)], rest)
        | _ => none
      | _ => none
    | _ => none

end

end Reader

/-- The value that a source is the text of. Every step of the reader consumes
a character or goes one level down, and going down consumes one too. -/
def read? (source : Source) : Option Json :=
  match Reader.value (2 * source.length + 2) source with
  | some (value, rest) => if (Reader.skipBlanks rest).isEmpty then some value else none
  | none => none

end EmbeddedSql.Json
