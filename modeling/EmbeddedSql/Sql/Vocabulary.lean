import EmbeddedSql.Value

/-!
# The vocabulary of statements

Keywords, operators and symbols, with their spellings. A reserved word is
recognised in any mix of ASCII cases and shown in upper case; letters outside
ASCII never stand for ASCII ones.
-/

namespace EmbeddedSql.Sql

/-- A word with its ASCII letters in upper case. -/
def upperWord (word : String) : String :=
  String.ofList (word.toList.map Char.toUpper)

/-- The keywords. -/
inductive Keyword where
  | select | from | where | and | or | not
  | insert | into | values | update | set | delete | returning
  | create | table | if | exists | drop
  deriving DecidableEq, Repr

namespace Keyword

/-- All keywords. -/
def all : List Keyword :=
  [.select, .from, .where, .and, .or, .not, .insert, .into, .values, .update, .set, .delete,
   .returning, .create, .table, .if, .exists, .drop]

/-- The keyword in upper case. -/
def name : Keyword → String
  | .select => "SELECT"
  | .from => "FROM"
  | .where => "WHERE"
  | .and => "AND"
  | .or => "OR"
  | .not => "NOT"
  | .insert => "INSERT"
  | .into => "INTO"
  | .values => "VALUES"
  | .update => "UPDATE"
  | .set => "SET"
  | .delete => "DELETE"
  | .returning => "RETURNING"
  | .create => "CREATE"
  | .table => "TABLE"
  | .if => "IF"
  | .exists => "EXISTS"
  | .drop => "DROP"

/-- The keyword that a word spells, cases ignored. -/
def ofWord? (word : String) : Option Keyword :=
  all.find? fun keyword => upperWord word == keyword.name

/-- Every keyword is listed. -/
theorem mem_all (keyword : Keyword) : keyword ∈ all := by
  cases keyword <;> decide

end Keyword

/-- The column type that a word spells, cases ignored. -/
def columnTypeOfWord? (word : String) : Option ColumnType :=
  ColumnType.all.find? fun type => upperWord word == type.name

/-- The literal that a word spells, cases ignored: a truth value or null. -/
def literalOfWord? (word : String) : Option Value :=
  let upper := upperWord word
  if upper = "TRUE" then some (.boolean true)
  else if upper = "FALSE" then some (.boolean false)
  else if upper = "NULL" then some .null
  else none

/-- The operators. Conditions use the first six; the star also stands for all
columns. -/
inductive Operator where
  | equal | notEqual | less | lessOrEqual | greater | greaterOrEqual
  | plus | minus | star | slash
  deriving DecidableEq, Repr

namespace Operator

/-- All operators. -/
def all : List Operator :=
  [.equal, .notEqual, .less, .lessOrEqual, .greater, .greaterOrEqual, .plus, .minus, .star,
   .slash]

/-- The operator's spelling. -/
def spelling : Operator → String
  | .equal => "="
  | .notEqual => "!="
  | .less => "<"
  | .lessOrEqual => "<="
  | .greater => ">"
  | .greaterOrEqual => ">="
  | .plus => "+"
  | .minus => "-"
  | .star => "*"
  | .slash => "/"

/-- Whether the operator compares, and so may stand in a condition. -/
def isComparison : Operator → Bool
  | .plus | .minus | .star | .slash => false
  | _ => true

/-- Whether the operator compares by order, which only numbers have. -/
def isOrdering : Operator → Bool
  | .less | .lessOrEqual | .greater | .greaterOrEqual => true
  | _ => false

end Operator

/-- Punctuation. -/
inductive Symbol where
  | leftParen | rightParen | comma | dot
  deriving DecidableEq, Repr

/-- The character that the symbol is. -/
def Symbol.char : Symbol → Char
  | .leftParen => '('
  | .rightParen => ')'
  | .comma => ','
  | .dot => '.'

/-- A token: the least unit of a statement. Reserved words have lost their
spelling; names and texts keep theirs. -/
inductive Token where
  /-- A number, a quoted text, a truth value or null. -/
  | literal (value : Value)
  /-- A keyword. -/
  | keyword (keyword : Keyword)
  /-- A column type. -/
  | columnType (type : ColumnType)
  /-- An operator. -/
  | operator (operator : Operator)
  /-- A name. -/
  | identifier (name : String)
  /-- Punctuation. -/
  | symbol (symbol : Symbol)
  deriving DecidableEq, Repr

namespace Token

/-- A literal in the notation of error messages. -/
def describeLiteral : Value → String
  | .number n => String.ofList n.text
  | .text s => "'" ++ s ++ "'"
  | .boolean true => "TRUE"
  | .boolean false => "FALSE"
  | .null => "NULL"

/-- The token in the notation of error messages. -/
def describe : Token → String
  | .literal v => "literal " ++ describeLiteral v
  | .keyword k => "keyword " ++ k.name
  | .columnType t => "type " ++ t.name
  | .operator op => "'" ++ op.spelling ++ "'"
  | .identifier name => "identifier \"" ++ name ++ "\""
  | .symbol s => "'" ++ s.char.toString ++ "'"

/-- The token that a word is: a literal, a keyword, a column type, or else a
name. -/
def ofWord (word : String) : Token :=
  match literalOfWord? word with
  | some v => .literal v
  | none =>
    match Keyword.ofWord? word with
    | some k => .keyword k
    | none =>
      match columnTypeOfWord? word with
      | some t => .columnType t
      | none => .identifier word

end Token

end EmbeddedSql.Sql
