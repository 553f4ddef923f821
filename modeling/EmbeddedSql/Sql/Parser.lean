import EmbeddedSql.Sql.Statement

/-!
# From tokens to statements

Each function reads one construct from the front of a token list and gives what
is left of it. None of them goes back: what a construct begins with decides how
it goes on. A failure keeps the tokens that were left when it was noticed, so
its place is known.
-/

namespace EmbeddedSql.Sql

/-- What a statement could have gone on with. -/
inductive Expectation where
  /-- A certain keyword. -/
  | keyword (keyword : Keyword)
  /-- A certain symbol. -/
  | symbol (symbol : Symbol)
  /-- The sign that assigns. -/
  | equalsSign
  /-- A name. -/
  | identifier
  /-- A literal. -/
  | literal
  /-- The type of a column. -/
  | columnType
  /-- An operator that compares. -/
  | comparison
  /-- The keyword that begins a statement. -/
  | statement
  deriving DecidableEq, Repr

/-- The expectation in the wording of error messages. -/
def Expectation.describe : Expectation → String
  | .keyword k => "keyword " ++ k.name
  | .symbol s => "'" ++ s.char.toString ++ "'"
  | .equalsSign => "'='"
  | .identifier => "an identifier"
  | .literal => "a literal value"
  | .columnType => "a column type"
  | .comparison => "a comparison operator"
  | .statement => "SELECT, INSERT, UPDATE, DELETE, CREATE or DROP"

/-- Why tokens are no statement. -/
inductive SyntaxError where
  /-- A token that cannot stand where it does. -/
  | unexpectedToken (expected : Expectation) (found : Token)
  /-- The tokens end too early. -/
  | unexpectedEnd (expected : Expectation)
  /-- A token behind a complete statement. -/
  | trailingTokens (found : Token)
  /-- No tokens at all. -/
  | emptyStatement
  /-- A tuple with more or fewer values than there are columns listed. -/
  | arityMismatch (fields values : Nat)
  deriving DecidableEq, Repr

namespace Parser

/-- An error and the tokens that were left when it was noticed. -/
structure Failure where
  /-- The error. -/
  error : SyntaxError
  /-- The tokens from the error's place on. -/
  rest : List Token
  deriving DecidableEq, Repr

/-- The failure of an expectation in front of the given tokens. -/
def failure (expected : Expectation) : List Token → Failure
  | [] => ⟨.unexpectedEnd expected, []⟩
  | found :: rest => ⟨.unexpectedToken expected found, found :: rest⟩

/-- Reads the given token. -/
def token (wanted : Token) (expected : Expectation) (tokens : List Token) :
    Except Failure (List Token) :=
  match tokens with
  | [] => .error (failure expected [])
  | found :: rest =>
    if found = wanted then .ok rest else .error (failure expected (found :: rest))

/-- Reads a keyword. -/
def keyword (k : Keyword) : List Token → Except Failure (List Token) :=
  token (.keyword k) (.keyword k)

/-- Reads a symbol. -/
def symbol (s : Symbol) : List Token → Except Failure (List Token) :=
  token (.symbol s) (.symbol s)

/-- Reads a name. -/
def identifier : List Token → Except Failure (String × List Token)
  | .identifier name :: rest => .ok (name, rest)
  | tokens => .error (failure .identifier tokens)

/-- Reads one or more names with commas between them. -/
def names : List Token → Except Failure (List String × List Token)
  | .identifier name :: .symbol .comma :: rest => do
    let (others, rest) ← names rest
    .ok (name :: others, rest)
  | .identifier name :: rest => .ok ([name], rest)
  | tokens => .error (failure .identifier tokens)

/-- Reads a star or a list of names. -/
def fields : List Token → Except Failure (Fields × List Token)
  | .operator .star :: rest => .ok (.all, rest)
  | tokens => do
    let (list, rest) ← names tokens
    .ok (.named list, rest)

/-- Reads a list of columns that is wanted back, if there is one. -/
def returning : List Token → Except Failure (Fields × List Token)
  | .keyword .returning :: rest => fields rest
  | tokens => .ok (.empty, tokens)

/-- Adds a comparison to the first group. -/
def conjoin (condition : Condition) : Conditions → Conditions
  | [] => [[condition]]
  | group :: groups => (condition :: group) :: groups

/-- Reads one or more comparisons with AND or OR between them; AND keeps a
comparison in its group and OR begins a new one. -/
def conditions : List Token → Except Failure (Conditions × List Token)
  | .identifier field :: .operator op :: .literal value :: rest =>
    if op.isComparison then
      match rest with
      | .keyword .and :: more => do
        let (groups, rest) ← conditions more
        .ok (conjoin ⟨field, op, value⟩ groups, rest)
      | .keyword .or :: more => do
        let (groups, rest) ← conditions more
        .ok ([⟨field, op, value⟩] :: groups, rest)
      | rest => .ok ([[⟨field, op, value⟩]], rest)
    else .error (failure .comparison (.operator op :: .literal value :: rest))
  | .identifier _ :: .operator op :: rest =>
    if op.isComparison then .error (failure .literal rest)
    else .error (failure .comparison (.operator op :: rest))
  | .identifier _ :: rest => .error (failure .comparison rest)
  | tokens => .error (failure .identifier tokens)

/-- Reads the condition on rows, if there is one. -/
def whereClause : List Token → Except Failure (Conditions × List Token)
  | .keyword .where :: rest => conditions rest
  | tokens => .ok ([], tokens)

/-- Reads one or more assignments with commas between them. -/
def assignments : List Token → Except Failure (List Assignment × List Token)
  | .identifier field :: .operator .equal :: .literal value :: .symbol .comma :: rest => do
    let (others, rest) ← assignments rest
    .ok (⟨field, value⟩ :: others, rest)
  | .identifier field :: .operator .equal :: .literal value :: rest =>
    .ok ([⟨field, value⟩], rest)
  | .identifier _ :: .operator .equal :: rest => .error (failure .literal rest)
  | .identifier _ :: rest => .error (failure .equalsSign rest)
  | tokens => .error (failure .identifier tokens)

/-- Reads one or more columns with commas between them. -/
def columns : List Token → Except Failure (List Column × List Token)
  | .identifier name :: .columnType type :: .symbol .comma :: rest => do
    let (others, rest) ← columns rest
    .ok (⟨name, type⟩ :: others, rest)
  | .identifier name :: .columnType type :: rest => .ok ([⟨name, type⟩], rest)
  | .identifier _ :: rest => .error (failure .columnType rest)
  | tokens => .error (failure .identifier tokens)

/-- Reads on in a tuple of which the given values were read, and the tuples
behind it. A tuple that does not have as many values as asked for is refused
as soon as it is closed. -/
def tuplesFrom (arity : Option Nat) (front : List Value) :
    List Token → Except Failure (List (List Value) × List Token)
  | .literal value :: .symbol .comma :: rest => tuplesFrom arity (front ++ [value]) rest
  | .literal value :: .symbol .rightParen :: rest =>
    let tuple := front ++ [value]
    let count := arity.getD tuple.length
    if count = tuple.length then
      match rest with
      | .symbol .comma :: .symbol .leftParen :: more => do
        let (others, rest) ← tuplesFrom arity [] more
        .ok (tuple :: others, rest)
      | .symbol .comma :: more => .error (failure (.symbol .leftParen) more)
      | rest => .ok ([tuple], rest)
    else .error ⟨.arityMismatch count tuple.length, rest⟩
  | .literal _ :: rest => .error (failure (.symbol .rightParen) rest)
  | tokens => .error (failure .literal tokens)

/-- Reads one or more tuples with commas between them. -/
def tuples (arity : Option Nat) (tokens : List Token) :
    Except Failure (List (List Value) × List Token) := do
  let rest ← symbol .leftParen tokens
  tuplesFrom arity [] rest

/-- Reads the rest of a statement that reads rows. -/
def select (tokens : List Token) : Except Failure (Statement × List Token) := do
  let (fields, rest) ← fields tokens
  let rest ← keyword .from rest
  let (table, rest) ← identifier rest
  let (conditions, rest) ← whereClause rest
  .ok (.select ⟨table, fields, conditions⟩, rest)

/-- Reads the columns that an insertion lists in parentheses, or takes all. -/
def insertFields : List Token → Except Failure (Fields × List Token)
  | .symbol .leftParen :: rest => do
    let (list, rest) ← names rest
    let rest ← symbol .rightParen rest
    .ok (.named list, rest)
  | tokens => .ok (.all, tokens)

/-- How many values each tuple must have, if columns are listed. -/
def arityOf : Fields → Option Nat
  | .all => none
  | .named list => some list.length

/-- Reads the rest of a statement that adds rows. -/
def insert (tokens : List Token) : Except Failure (Statement × List Token) := do
  let rest ← keyword .into tokens
  let (table, rest) ← identifier rest
  let (fields, rest) ← insertFields rest
  let rest ← keyword .values rest
  let (tuples, rest) ← tuples (arityOf fields) rest
  let (wanted, rest) ← returning rest
  .ok (.insert ⟨table, fields, tuples, wanted⟩, rest)

/-- Reads the rest of a statement that changes rows. -/
def update (tokens : List Token) : Except Failure (Statement × List Token) := do
  let (table, rest) ← identifier tokens
  let rest ← keyword .set rest
  let (assignments, rest) ← assignments rest
  let (conditions, rest) ← whereClause rest
  let (wanted, rest) ← returning rest
  .ok (.update ⟨table, assignments, conditions, wanted⟩, rest)

/-- Reads the rest of a statement that removes rows. -/
def delete (tokens : List Token) : Except Failure (Statement × List Token) := do
  let rest ← keyword .from tokens
  let (table, rest) ← identifier rest
  let (conditions, rest) ← whereClause rest
  let (wanted, rest) ← returning rest
  .ok (.delete ⟨table, conditions, wanted⟩, rest)

/-- Reads the clause that lets a table be there already, if it is there. -/
def ifNotExists : List Token → Except Failure (Bool × List Token)
  | .keyword .if :: rest => do
    let rest ← keyword .not rest
    let rest ← keyword .exists rest
    .ok (true, rest)
  | tokens => .ok (false, tokens)

/-- Reads the clause that lets a table be missing, if it is there. -/
def ifExists : List Token → Except Failure (Bool × List Token)
  | .keyword .if :: rest => do
    let rest ← keyword .exists rest
    .ok (true, rest)
  | tokens => .ok (false, tokens)

/-- Reads the rest of a statement that makes a table. -/
def create (tokens : List Token) : Except Failure (Statement × List Token) := do
  let rest ← keyword .table tokens
  let (flag, rest) ← ifNotExists rest
  let (table, rest) ← identifier rest
  let rest ← symbol .leftParen rest
  let (columns, rest) ← columns rest
  let rest ← symbol .rightParen rest
  .ok (.create ⟨table, flag, columns⟩, rest)

/-- Reads the rest of a statement that removes a table. -/
def drop (tokens : List Token) : Except Failure (Statement × List Token) := do
  let rest ← keyword .table tokens
  let (flag, rest) ← ifExists rest
  let (table, rest) ← identifier rest
  .ok (.drop ⟨table, flag⟩, rest)

/-- Reads a statement; its first keyword says which kind it is. -/
def statement : List Token → Except Failure (Statement × List Token)
  | [] => .error ⟨.emptyStatement, []⟩
  | .keyword .select :: rest => select rest
  | .keyword .insert :: rest => insert rest
  | .keyword .update :: rest => update rest
  | .keyword .delete :: rest => delete rest
  | .keyword .create :: rest => create rest
  | .keyword .drop :: rest => drop rest
  | tokens => .error (failure .statement tokens)

/-- Reads a statement that the tokens make up as a whole. -/
def whole (tokens : List Token) : Except Failure Statement := do
  let (result, rest) ← statement tokens
  match rest with
  | [] => .ok result
  | found :: more => .error ⟨.trailingTokens found, found :: more⟩

end Parser

/-- The statement that the tokens make up, or the error in the way of it. -/
def Statement.ofTokens (tokens : List Token) : Except SyntaxError Statement :=
  (Parser.whole tokens).mapError (·.error)

end EmbeddedSql.Sql
