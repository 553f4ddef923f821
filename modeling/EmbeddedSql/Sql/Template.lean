import EmbeddedSql.Sql.Script
import EmbeddedSql.Value

/-!
# Templates and their parameters

A template is a text with placeholders: a dollar sign and digits, outside
quotes. Binding writes a value in the place of every placeholder, as a literal
that is read back as that value. Numbering begins at one.
-/

namespace EmbeddedSql.Sql

/-- Why a value cannot be written as a literal. -/
inductive Unwritable where
  /-- It is a number that is not finite. -/
  | notFinite
  /-- It is a text that holds both quotes, so that neither can enclose it. -/
  | bothQuotes
  deriving DecidableEq, Repr

/-- Why a template cannot be bound. -/
inductive BindingError where
  /-- There is no parameter with this number. -/
  | missing (index : Nat)
  /-- The parameter with this number cannot be written. -/
  | unwritable (index : Nat) (reason : Unwritable)
  deriving DecidableEq, Repr

namespace Template

/-- A part of a template. -/
inductive Part where
  /-- A character that stands for itself. -/
  | char (c : Char)
  /-- A placeholder with its number. -/
  | placeholder (index : Nat)
  deriving DecidableEq, Repr

/-- Where a scan of a template stands. -/
inductive Mode where
  /-- Outside quotes. -/
  | plain
  /-- Behind a quote that waits for its like. -/
  | quoted (quote : Char)
  /-- Among the digits of a placeholder; those read so far make this number. -/
  | index (soFar : Nat)
  deriving DecidableEq, Repr

/-- A placeholder's number. One that 64 bits cannot hold counts as zero, which
no parameter has. -/
def placeholderOf (index : Nat) : Part :=
  .placeholder (if index < Nat.pow 2 64 then index else 0)

/-- The parts of a text, scanned from a mode on. -/
def partsFrom : Mode → List Char → List Part
  | _, [] => []
  | .quoted quote, c :: rest =>
    .char c :: partsFrom (if c = quote then .plain else .quoted quote) rest
  | .index soFar, c :: rest =>
    let index := soFar * 10 + Decimal.digitValue c
    if rest.head?.any Char.isDigit then partsFrom (.index index) rest
    else placeholderOf index :: partsFrom .plain rest
  | .plain, c :: rest =>
    if c = '$' ∧ rest.head?.any Char.isDigit then partsFrom (.index 0) rest
    else .char c :: partsFrom (if Script.isQuote c then .quoted c else .plain) rest

/-- The parts of a template. -/
def parts (template : List Char) : List Part :=
  partsFrom .plain template

/-- A text in the quotes that it does not hold, double ones before single ones. -/
def quote? (text : List Char) : Option (List Char) :=
  if !text.contains '"' then some ('"' :: text ++ ['"'])
  else if !text.contains '\'' then some ('\'' :: text ++ ['\''])
  else none

/-- A value as the literal that is read back as that value. -/
def literal (value : Value) : Except Unwritable (List Char) :=
  match value with
  | .number n => if n.isFinite then .ok n.text else .error .notFinite
  | .text s =>
    match quote? s.toList with
    | some text => .ok text
    | none => .error .bothQuotes
  | .boolean true => .ok "true".toList
  | .boolean false => .ok "false".toList
  | .null => .ok "null".toList

/-- The value of a placeholder as a literal. -/
def write (parameters : List Value) (index : Nat) : Except BindingError (List Char) :=
  match index with
  | 0 => .error (.missing 0)
  | n + 1 =>
    match parameters[n]? with
    | none => .error (.missing (n + 1))
    | some value =>
      match literal value with
      | .ok text => .ok text
      | .error reason => .error (.unwritable (n + 1) reason)

/-- The text of the parts with a literal in the place of every placeholder; the
error is that of the first placeholder that has one. -/
def fill (parameters : List Value) : List Part → Except BindingError (List Char)
  | [] => .ok []
  | .char c :: rest => do
    let text ← fill parameters rest
    .ok (c :: text)
  | .placeholder index :: rest => do
    let front ← write parameters index
    let text ← fill parameters rest
    .ok (front ++ text)

/-- The text of a template with its parameters written into it. -/
def bind (template : List Char) (parameters : List Value) : Except BindingError (List Char) :=
  fill parameters (parts template)

end Template

end EmbeddedSql.Sql
