import EmbeddedSql.Sql.Lexer
import EmbeddedSql.Sql.Parser
import EmbeddedSql.Sql.Template
import EmbeddedSql.Sql.Validation

/-!
# Errors

Everything that can keep a statement from its result, and how it is reported:
a message, a code that names the kind of error, and for some kinds an advice or
a marked place in the statement.
-/

namespace EmbeddedSql

/-- A length of time in milliseconds. -/
structure Duration where
  /-- The milliseconds. -/
  milliseconds : Nat
  deriving DecidableEq, Repr

namespace Duration

/-- The thousandths of a second as digits behind a point, without zeros at the
end; nothing if there are none. -/
def fraction (thousandths : Nat) : List Char :=
  let digits := Nat.toDigits 10 thousandths
  let padded := List.replicate (3 - digits.length) '0' ++ digits
  match (padded.reverse.dropWhile (· == '0')).reverse with
  | [] => []
  | shown => '.' :: shown

/-- The time in seconds from one second on, else in milliseconds; no time at
all is zero nanoseconds. -/
def describe (d : Duration) : String :=
  if d.milliseconds = 0 then "0ns"
  else if d.milliseconds < 1000 then toString d.milliseconds ++ "ms"
  else toString (d.milliseconds / 1000) ++ String.ofList (fraction (d.milliseconds % 1000)) ++ "s"

end Duration

/-- What keeps a statement from its table. -/
inductive CatalogError where
  /-- There is a table of that name already. -/
  | tableExists (table : String)
  /-- There is no table of that name. -/
  | tableNotFound (table : String)
  /-- The table was in use for longer than the statement may wait. -/
  | lockTimeout (table : String) (timeout : Duration)
  deriving DecidableEq, Repr

/-- What keeps a document from being read or written. -/
inductive StorageError where
  /-- The store refuses to be read. -/
  | readRefused
  /-- The store refuses to be written. -/
  | writeRefused
  /-- A file operation fails for reasons of the file system. -/
  | fileSystem
  /-- What is stored is no document. -/
  | undecodable
  deriving DecidableEq, Repr

/-- An error of any kind. -/
inductive Error where
  /-- The text is no sequence of tokens. -/
  | lexical (error : Sql.LexicalError)
  /-- The tokens are no statement. -/
  | syntactic (error : Sql.SyntaxError)
  /-- A parameter cannot be written into the text. -/
  | binding (error : Sql.BindingError)
  /-- The statement does not fit its table. -/
  | validation (error : Sql.ValidationError)
  /-- The table is not there, is there already, or is in use. -/
  | catalog (error : CatalogError)
  /-- The store fails. -/
  | storage (error : StorageError)
  deriving DecidableEq, Repr

namespace Sql.LexicalError

/-- The place of the error. -/
def span : LexicalError → Span
  | .unexpectedCharacter _ span => span
  | .invalidNumber _ span => span
  | .unterminatedString span => span

/-- What is said about the place. -/
def label : LexicalError → String
  | .unexpectedCharacter .. => "not valid here"
  | .invalidNumber .. => "not a number"
  | .unterminatedString _ => "string starts here"

/-- The message. -/
def message : LexicalError → String
  | .unexpectedCharacter c _ => "unexpected character '" ++ c.toString ++ "'"
  | .invalidNumber text _ => "invalid number '" ++ text ++ "'"
  | .unterminatedString _ => "unterminated string literal"

/-- The code. -/
def code : LexicalError → String
  | .unexpectedCharacter .. => "skiff::lex::unexpected_character"
  | .invalidNumber .. => "skiff::lex::invalid_number"
  | .unterminatedString _ => "skiff::lex::unterminated_string"

end Sql.LexicalError

namespace Sql.SyntaxError

/-- The message. -/
def message : SyntaxError → String
  | .unexpectedToken expected found =>
    "expected " ++ expected.describe ++ ", found " ++ found.describe
  | .unexpectedEnd expected =>
    "expected " ++ expected.describe ++ ", found unexpected end of statement"
  | .trailingTokens found => "unexpected " ++ found.describe ++ " after end of statement"
  | .emptyStatement => "empty statement"
  | .arityMismatch fields values =>
    toString fields ++ " columns listed but " ++ toString values ++ " values given"

/-- The code. -/
def code : SyntaxError → String
  | .unexpectedToken .. => "skiff::syntax::unexpected_token"
  | .unexpectedEnd _ => "skiff::syntax::unexpected_end"
  | .trailingTokens _ => "skiff::syntax::trailing_tokens"
  | .emptyStatement => "skiff::syntax::empty_statement"
  | .arityMismatch .. => "skiff::syntax::arity_mismatch"

end Sql.SyntaxError

namespace Sql.BindingError

/-- Why a value cannot be written, in words. -/
def describe : Unwritable → String
  | .notFinite => "the number is not finite"
  | .bothQuotes => "the text contains both quote characters"

/-- The message. -/
def message : BindingError → String
  | .missing index => "no value bound for parameter $" ++ toString index
  | .unwritable index reason =>
    "parameter $" ++ toString index ++ " cannot be bound: " ++ describe reason

/-- The code. -/
def code : BindingError → String
  | .missing _ => "skiff::syntax::missing_parameter"
  | .unwritable .. => "skiff::syntax::unbindable_parameter"

end Sql.BindingError

namespace Sql.ValidationError

/-- The message. -/
def message : ValidationError → String
  | .columnNotFound table column =>
    "column \"" ++ column ++ "\" does not exist in table \"" ++ table ++ "\""
  | .typeMismatch column expected found =>
    column ++ " expects " ++ expected.name ++ ", got " ++ found.kindName
  | .nonNumericComparison column operator type =>
    "operator " ++ operator.spelling ++ " requires a NUMERIC column, but " ++ column ++ " is " ++
      type.name
  | .valueCountMismatch expected found =>
    "expected " ++ toString expected ++ " values, got " ++ toString found
  | .duplicateColumn column => "column \"" ++ column ++ "\" specified more than once"

/-- The code. -/
def code : ValidationError → String
  | .columnNotFound .. => "skiff::validate::column_not_found"
  | .typeMismatch .. => "skiff::validate::type_mismatch"
  | .nonNumericComparison .. => "skiff::validate::non_numeric_comparison"
  | .valueCountMismatch .. => "skiff::validate::value_count"
  | .duplicateColumn _ => "skiff::validate::duplicate_column"

end Sql.ValidationError

namespace CatalogError

/-- The message. -/
def message : CatalogError → String
  | .tableExists table => "table \"" ++ table ++ "\" already exists"
  | .tableNotFound table => "table \"" ++ table ++ "\" does not exist"
  | .lockTimeout table timeout =>
    "timed out after " ++ timeout.describe ++ " waiting for table \"" ++ table ++ "\""

/-- The code. -/
def code : CatalogError → String
  | .tableExists _ => "skiff::engine::table_exists"
  | .tableNotFound _ => "skiff::engine::table_not_found"
  | .lockTimeout .. => "skiff::engine::lock_timeout"

end CatalogError

namespace StorageError

/-- The message. What the file system and the reader of documents would say is
not known here. -/
def message? : StorageError → Option String
  | .readRefused => some "storage I/O failed: read refused"
  | .writeRefused => some "storage I/O failed: write refused"
  | .fileSystem => none
  | .undecodable => none

/-- The code. -/
def code : StorageError → String
  | .undecodable => "skiff::storage::json"
  | _ => "skiff::storage::io"

end StorageError

namespace Error

/-- The message, where the error has one of its own. -/
def message? : Error → Option String
  | .lexical e => some e.message
  | .syntactic e => some e.message
  | .binding e => some e.message
  | .validation e => some e.message
  | .catalog e => some e.message
  | .storage e => e.message?

/-- The code that names the kind of error. -/
def code : Error → String
  | .lexical e => e.code
  | .syntactic e => e.code
  | .binding e => e.code
  | .validation e => e.code
  | .catalog e => e.code
  | .storage e => e.code

/-- Advice, for the kinds of errors that have some. -/
def help? : Error → Option String
  | .lexical (.unterminatedString _) =>
    some "close the string with the same quote it was opened with"
  | .catalog (.tableExists _) => some "use CREATE TABLE IF NOT EXISTS"
  | _ => none

/-- The place in the statement that is marked, with what is said about it. -/
def mark? : Error → Option (Sql.Span × String)
  | .lexical e => some (e.span, e.label)
  | _ => none

end Error

end EmbeddedSql
