import EmbeddedSql.Error

/-!
# From text to statements

A text is read as one statement, or split at its semicolons and each part read
as one.
-/

namespace EmbeddedSql.Sql

/-- Reads a text as one statement. -/
def parseStatement (text : List Char) : Except Error Statement :=
  match tokenize text with
  | .error error => .error (.lexical error)
  | .ok tokens => (Statement.ofTokens tokens).mapError .syntactic

/-- Reads the statements of a script; the error is that of the first one that
cannot be read. -/
def parseScript (script : List Char) : Except Error (List Statement) :=
  (Script.statements script).mapM parseStatement

/-- Writes the parameters into a template. -/
def bindTemplate (template : List Char) (parameters : List Value) : Except Error (List Char) :=
  (Template.bind template parameters).mapError .binding

end EmbeddedSql.Sql
