import EmbeddedSql.Value

/-!
# Rows

A row maps column names to values and keeps the columns in the order of their
first setting. Setting a column again changes its value and nothing else.
-/

namespace EmbeddedSql

/-- A row: its columns in order, each with its value. -/
structure Row where
  /-- The columns and their values. -/
  columns : List (String × Value)
  deriving DecidableEq, Repr

namespace Row

/-- The row without columns. -/
def empty : Row :=
  ⟨[]⟩

instance : Inhabited Row := ⟨empty⟩

/-- The value under a name, the first one if a list of pairs has several. -/
def lookup (name : String) : List (String × Value) → Option Value
  | [] => none
  | (column, value) :: rest => if column = name then some value else lookup name rest

/-- The value of a column, if the row has the column. -/
def get? (row : Row) (name : String) : Option Value :=
  lookup name row.columns

/-- The pairs with a value put under a name: in place of the value there, or at
the end. -/
def put (name : String) (value : Value) : List (String × Value) → List (String × Value)
  | [] => [(name, value)]
  | (column, old) :: rest =>
    if column = name then (column, value) :: rest else (column, old) :: put name value rest

/-- The row with a column set to a value. -/
def set (row : Row) (name : String) (value : Value) : Row :=
  ⟨put name value row.columns⟩

/-- The row with columns set one after another. -/
def setAll (row : Row) (pairs : List (String × Value)) : Row :=
  pairs.foldl (fun row pair => row.set pair.1 pair.2) row

/-- The row built from pairs by setting one after another. -/
def ofList (pairs : List (String × Value)) : Row :=
  empty.setAll pairs

/-- The names of the columns, in order. -/
def names (row : Row) : List String :=
  row.columns.map Prod.fst

/-- A column that was set is found with its value, and the others stay. -/
theorem get?_set (row : Row) (name other : String) (value : Value) :
    (row.set name value).get? other = if name = other then some value else row.get? other := by
  obtain ⟨columns⟩ := row
  simp only [get?, set]
  induction columns with
  | nil => simp [put, lookup]
  | cons pair rest ih =>
    obtain ⟨column, old⟩ := pair
    by_cases hc : column = name <;> by_cases ho : name = other <;>
      by_cases hd : column = other <;> simp_all [put, lookup]

/-- Setting a column adds its name at the end unless it is there. -/
theorem names_set (row : Row) (name : String) (value : Value) :
    (row.set name value).names = if name ∈ row.names then row.names else row.names ++ [name] := by
  obtain ⟨columns⟩ := row
  simp only [names, set]
  induction columns with
  | nil => simp [put]
  | cons pair rest ih =>
    obtain ⟨column, old⟩ := pair
    by_cases hc : column = name
    · simp [put, hc]
    · simp only [put, hc, if_false, List.map_cons, ih, List.mem_cons]
      by_cases hm : name ∈ rest.map Prod.fst <;> simp [hm, Ne.symm hc]

end Row

end EmbeddedSql
