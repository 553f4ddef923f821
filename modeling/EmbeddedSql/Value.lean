import EmbeddedSql.Number.Shortest

/-!
# Values and column types

A value is a number, a text, a truth value or the absence of one. A column's
type says which values it takes: those of its own kind, and always null.
-/

namespace EmbeddedSql

/-- The type of a column. -/
inductive ColumnType where
  /-- Finite double-precision numbers. -/
  | numeric
  /-- Texts. -/
  | text
  /-- Truth values. -/
  | boolean
  deriving DecidableEq, Repr

namespace ColumnType

/-- All column types. -/
def all : List ColumnType :=
  [.numeric, .text, .boolean]

/-- The type's name as it is stored and shown. -/
def name : ColumnType → String
  | .numeric => "NUMERIC"
  | .text => "TEXT"
  | .boolean => "BOOLEAN"

end ColumnType

/-- A value in a row or in a statement. -/
inductive Value where
  /-- A number. -/
  | number (n : Binary64)
  /-- A text. -/
  | text (s : String)
  /-- A truth value. -/
  | boolean (b : Bool)
  /-- The absence of a value. -/
  | null
  deriving DecidableEq, Repr

instance : Inhabited Value := ⟨.null⟩

namespace Value

/-- Whether a column of the type takes the value: null fits every type, any
other value only the type of its own kind. -/
def fits : Value → ColumnType → Bool
  | .null, _ => true
  | .number _, .numeric => true
  | .text _, .text => true
  | .boolean _, .boolean => true
  | _, _ => false

/-- The number that the value is, if it is one. -/
def number? : Value → Option Binary64
  | .number n => some n
  | _ => none

/-- The name of the value's kind in error messages. -/
def kindName : Value → String
  | .number _ => "number"
  | .text _ => "string"
  | .boolean _ => "boolean"
  | .null => "null"

/-- The value's bare text, as a cell of a printed row shows it. -/
def display : Value → String
  | .number n => String.ofList n.text
  | .text s => s
  | .boolean true => "true"
  | .boolean false => "false"
  | .null => "NULL"

/-- Whether two values are of one kind and equal in it. Numbers are compared
as numbers, so the two zeros are the same and what is no number is the same as
nothing. -/
def same : Value → Value → Bool
  | .number x, .number y => x.numEq y
  | .text s, .text t => s == t
  | .boolean a, .boolean b => a == b
  | .null, .null => true
  | _, _ => false

/-- Null is the same as null only. -/
theorem same_null_iff {v : Value} : v.same .null = true ↔ v = .null := by
  cases v <;> simp [same]

end Value

end EmbeddedSql
