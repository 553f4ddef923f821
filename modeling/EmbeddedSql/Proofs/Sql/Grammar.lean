import EmbeddedSql.Sql.Parser

/-!
# The grammar of statements

Every statement is written as one list of tokens, and some statements cannot be
written at all: those with an empty list where the grammar wants at least one
entry, with tuples that do not match the listed columns, or with an operator
that does not compare. The writing and the condition for it are defined here
without a word about reading; what a list of tokens is read as is the subject of
the module on parsing.
-/

namespace EmbeddedSql

namespace Sql

/-- Entries with commas between them. -/
def commas (entries : List (List Token)) : List Token :=
  List.intercalate [.symbol .comma] entries

/-- Names with commas between them. -/
def nameTokens (names : List String) : List Token :=
  commas (names.map fun name => [.identifier name])

/-- A choice of columns: the star or the names. -/
def Fields.tokens : Fields → List Token
  | .all => [.operator .star]
  | .named names => nameTokens names

/-- A comparison: the column, the operator and the value. -/
def Condition.tokens (c : Condition) : List Token :=
  [.identifier c.field, .operator c.operator, .literal c.value]

/-- The comparisons of a group with AND between them. -/
def groupTokens (group : List Condition) : List Token :=
  List.intercalate [.keyword .and] (group.map Condition.tokens)

/-- The groups of a condition with OR between them. -/
def conditionTokens (groups : Conditions) : List Token :=
  List.intercalate [.keyword .or] (groups.map groupTokens)

/-- The clause with the condition on rows; nothing if every row is meant. -/
def whereTokens : Conditions → List Token
  | [] => []
  | groups => .keyword .where :: conditionTokens groups

/-- The clause with the columns wanted back; nothing if none are. -/
def returningTokens : Fields → List Token
  | .named [] => []
  | fields => .keyword .returning :: fields.tokens

/-- An assignment: the column, the sign and the value. -/
def Assignment.tokens (a : Assignment) : List Token :=
  [.identifier a.field, .operator .equal, .literal a.value]

end Sql

/-- A column of a new table: the name and the type. -/
def Column.tokens (c : Column) : List Sql.Token :=
  [.identifier c.name, .columnType c.type]

namespace Sql

/-- Entries with commas between them, in parentheses. -/
def parenthesized (entries : List (List Token)) : List Token :=
  .symbol .leftParen :: commas entries ++ [.symbol .rightParen]

/-- The values of a tuple. -/
def tupleTokens (tuple : List Value) : List Token :=
  parenthesized (tuple.map fun value => [.literal value])

/-- The columns that an insertion lists; nothing if it means all of them. -/
def listedTokens : Fields → List Token
  | .all => []
  | .named names => parenthesized (names.map fun name => [.identifier name])

/-- The words that let a table be there already. -/
def ifNotExistsTokens (flag : Bool) : List Token :=
  if flag then [.keyword .if, .keyword .not, .keyword .exists] else []

/-- The words that let a table be missing. -/
def ifExistsTokens (flag : Bool) : List Token :=
  if flag then [.keyword .if, .keyword .exists] else []

/-- The tokens that a statement is written as. -/
def Statement.tokens : Statement → List Token
  | .select s =>
    .keyword .select :: s.fields.tokens ++
      .keyword .from :: .identifier s.table :: whereTokens s.conditions
  | .insert s =>
    .keyword .insert :: .keyword .into :: .identifier s.table :: listedTokens s.fields ++
      .keyword .values :: commas (s.tuples.map tupleTokens) ++ returningTokens s.returning
  | .update s =>
    .keyword .update :: .identifier s.table :: .keyword .set ::
      commas (s.assignments.map Assignment.tokens) ++ whereTokens s.conditions ++
      returningTokens s.returning
  | .delete s =>
    .keyword .delete :: .keyword .from :: .identifier s.table :: whereTokens s.conditions ++
      returningTokens s.returning
  | .create s =>
    .keyword .create :: .keyword .table :: ifNotExistsTokens s.ifNotExists ++
      .identifier s.table :: parenthesized (s.columns.map Column.tokens)
  | .drop s =>
    .keyword .drop :: .keyword .table :: ifExistsTokens s.ifExists ++ [.identifier s.table]

/-- The six operators that compare. -/
def Operator.comparisons : List Operator :=
  [.equal, .notEqual, .less, .lessOrEqual, .greater, .greaterOrEqual]

/-- The star, or at least one name. -/
def Fields.Chosen (fields : Fields) : Prop :=
  fields ≠ .named []

/-- No group is empty, and every comparison has one of the six operators. -/
def Conditions.WellFormed (groups : Conditions) : Prop :=
  ∀ group ∈ groups, group ≠ [] ∧ ∀ c ∈ group, c.operator ∈ Operator.comparisons

/-- There are tuples and none of them is empty; if columns are listed, each
tuple has as many values. -/
def Insert.TuplesFit (s : Insert) : Prop :=
  s.tuples ≠ [] ∧ ∀ tuple ∈ s.tuples,
    tuple ≠ [] ∧ ∀ names, s.fields = .named names → tuple.length = names.length

/-- What a statement must be like to be written. -/
def Statement.WellFormed : Statement → Prop
  | .select s => s.fields.Chosen ∧ Conditions.WellFormed s.conditions
  | .insert s => s.fields.Chosen ∧ s.TuplesFit
  | .update s => s.assignments ≠ [] ∧ Conditions.WellFormed s.conditions
  | .delete s => Conditions.WellFormed s.conditions
  | .create s => s.columns ≠ []
  | .drop _ => True

end Sql

end EmbeddedSql
