import EmbeddedSql.Proofs.Sql.Finite
import EmbeddedSql.Proofs.Sql.Validation
import EmbeddedSql.Table.Document

/-!
# Consistent tables

A table is consistent if its columns have distinct names and every row has
exactly these columns, each once and in order, with a value that is null or of
the column's type, numbers being finite. A statement that passes validation and
whose own values are finite leaves a consistent table consistent: each check of
the validation is turned into what it guarantees, and each change of a table
keeps every row in shape given these guarantees.
-/

namespace EmbeddedSql

open Result

namespace Value

/-- The type of the columns that a value is made for; none for null. -/
def type? : Value → Option ColumnType
  | .number _ => some .numeric
  | .text _ => some .text
  | .boolean _ => some .boolean
  | .null => none

/-- A value fits a type if it is null or made for that type. -/
theorem fits_iff {v : Value} {type : ColumnType} :
    v.fits type = true ↔ v = .null ∨ v.type? = some type := by
  cases v <;> cases type <;> simp [fits, type?]

end Value

/-- A pair of a row is one for a column: it has the column's name, and its value
is null or of the column's type and no number that is not finite. -/
structure Column.Holds (column : Column) (pair : String × Value) : Prop where
  /-- The name is that of the column. -/
  name : pair.1 = column.name
  /-- The value is null or of the column's type. -/
  typed : pair.2 = .null ∨ pair.2.type? = some column.type
  /-- A number is finite. -/
  finite : pair.2.isFinite = true

/-- A row has exactly the columns of a schema, each once and in order. -/
def Row.InShape (schema : List Column) (row : Row) : Prop :=
  List.Forall₂ Column.Holds schema row.columns

/-- A table is consistent if its columns have distinct names and its rows are in
the shape that they give. -/
structure Table.Consistent (table : Table) : Prop where
  /-- The names of the columns are pairwise distinct. -/
  distinct : table.columnNames.Nodup
  /-- Every row is in shape. -/
  rows : ∀ row ∈ table.rows, row.InShape table.schema

/-! ## Rows -/

namespace Row

/-- A value may be put under a name if there is a column of that name which takes
it, and a number is finite. -/
def Admits (schema : List Column) (pair : String × Value) : Prop :=
  pair.2.isFinite = true ∧
    ∃ column, Table.column? schema pair.1 = some column ∧ pair.2.fits column.type = true

/-- Setting a column to a value that it takes keeps a row in shape. -/
theorem inShape_set {schema : List Column} {row : Row} {name : String} {value : Value}
    (h : row.InShape schema) (ha : Admits schema (name, value)) :
    (row.set name value).InShape schema := by
  obtain ⟨columns⟩ := row
  obtain ⟨hf, column, hc, ht⟩ := ha
  simp only [InShape, set] at h ⊢
  induction h with
  | nil => simp [Table.column?] at hc
  | @cons first pair schema columns hp hrest ih =>
    obtain ⟨key, old⟩ := pair
    have hk : key = first.name := hp.name
    by_cases he : key = name
    · have hfirst : column = first := by
        simp only [Table.column?, List.find?_cons, ← hk, he, beq_self_eq_true] at hc
        exact (Option.some.inj hc).symm
      subst hfirst
      simp only [put, he, if_true]
      exact .cons ⟨he ▸ hk, Value.fits_iff.mp ht, hf⟩ hrest
    · have hne : (first.name == name) = false := by simpa [← hk] using he
      simp only [Table.column?, List.find?_cons, hne] at hc
      simp only [put, he, if_false]
      exact .cons hp (ih hc)

/-- Setting columns one after another keeps a row in shape. -/
theorem inShape_setAll {schema : List Column} {row : Row} {pairs : List (String × Value)}
    (h : row.InShape schema) (ha : ∀ pair ∈ pairs, Admits schema pair) :
    (row.setAll pairs).InShape schema := by
  induction pairs generalizing row with
  | nil => exact h
  | cons pair rest ih =>
    obtain ⟨hp, hrest⟩ := List.forall_mem_cons.mp ha
    exact ih (inShape_set h hp) hrest

/-- A new name goes to the end. -/
theorem put_of_not_mem {name : String} {value : Value} {columns : List (String × Value)}
    (h : name ∉ columns.map Prod.fst) : put name value columns = columns ++ [(name, value)] := by
  induction columns with
  | nil => rfl
  | cons pair rest ih =>
    obtain ⟨key, old⟩ := pair
    rw [List.map_cons, List.mem_cons, not_or] at h
    rw [put, if_neg (Ne.symm h.1), ih h.2, List.cons_append]

/-- Setting columns with new distinct names adds them at the end. -/
theorem setAll_of_nodup {columns pairs : List (String × Value)}
    (h : ((columns ++ pairs).map Prod.fst).Nodup) :
    (Row.mk columns).setAll pairs = ⟨columns ++ pairs⟩ := by
  induction pairs generalizing columns with
  | nil => simp [setAll]
  | cons pair rest ih =>
    have hn : pair.1 ∉ columns.map Prod.fst := by
      rw [List.map_append, List.map_cons, List.nodup_append] at h
      intro hm
      exact h.2.2 _ hm _ (List.mem_cons_self ..) rfl
    have hs : (Row.mk columns).set pair.1 pair.2 = ⟨columns ++ [pair]⟩ := by
      rw [set, put_of_not_mem hn]
    have hi := @ih (columns ++ [pair]) (by simpa using h)
    rw [setAll, List.foldl_cons, hs]
    simpa [setAll] using hi

end Row

/-! ## Tables -/

namespace Table

/-- With distinct names, every column is the first one of its name. -/
theorem column?_of_mem {schema : List Column} (h : (schema.map (·.name)).Nodup)
    {column : Column} (hm : column ∈ schema) : column? schema column.name = some column := by
  induction schema with
  | nil => cases hm
  | cons first rest ih =>
    rw [List.map_cons, List.nodup_cons] at h
    rcases List.mem_cons.mp hm with rfl | hm
    · simp [column?]
    · have hne : (first.name == column.name) = false := by
        have hn : column.name ∈ rest.map (·.name) := List.mem_map_of_mem hm
        simpa using fun he : first.name = column.name => h.1 (he ▸ hn)
      have hr := ih h.2 hm
      rwa [column?, List.find?_cons_of_neg (by simp [hne]), ← column?]

/-- The row of nulls has the columns of the schema and is in shape. -/
theorem inShape_nulls {schema : List Column} (h : (schema.map (·.name)).Nodup) :
    (Row.ofList ((schema.map (·.name)).map (·, .null))).InShape schema := by
  have hn : (([] ++ (schema.map Column.name).map fun name => (name, Value.null)).map
      Prod.fst).Nodup := by
    simpa [Function.comp_def] using h
  rw [Row.ofList, Row.empty, Row.setAll_of_nodup hn, List.nil_append, Row.InShape, List.map_map,
    List.forall₂_map_right_iff, List.forall₂_same]
  exact fun column _ => ⟨rfl, .inl rfl, rfl⟩

/-- The pairs that a valid tuple sets are admitted by the table. -/
theorem admits_of_mem_zip {schema columns : List Column} {names : List String}
    {tuple : List Value}
    (hc : List.Forall₂ (fun name c => column? schema name = some c) names columns)
    (ht : List.Forall₂ (fun (c : Column) (v : Value) => v.fits c.type = true) columns tuple)
    (hf : ∀ v ∈ tuple, v.isFinite = true) :
    ∀ pair ∈ names.zip tuple, Row.Admits schema pair := by
  induction hc generalizing tuple with
  | nil => simp
  | @cons name column names columns hn _ ih =>
    cases ht with
    | @cons _ v _ more hv hmore =>
      have hfs := List.forall_mem_cons.mp hf
      rw [List.zip_cons_cons, List.forall_mem_cons]
      exact ⟨⟨hfs.1, column, hn, hv⟩, ih hmore hfs.2⟩

/-- A valid tuple of finite values becomes a row in shape. -/
theorem inShape_rowOfTuple {table : Table} {name : String} {choice : Sql.Fields}
    {columns : List Column} {tuple : List Value} (h : table.Consistent)
    (hc : Sql.Validation.insertColumns name table.schema choice = .ok columns)
    (ht : Sql.Validation.tuple columns tuple = .ok ())
    (hf : ∀ v ∈ tuple, v.isFinite = true) :
    (table.rowOfTuple choice tuple).InShape table.schema := by
  have hnulls := inShape_nulls h.distinct
  have hfits := Sql.Validation.tuple_eq_ok_iff.mp ht
  have hcolumns := Sql.Validation.insertColumns_eq_ok_iff.mp hc
  have hnames : List.Forall₂ (fun name c => column? table.schema name = some c)
      (table.insertColumns choice) columns := by
    cases choice with
    | all =>
      rw [hcolumns, insertColumns, columnNames, List.forall₂_map_left_iff, List.forall₂_same]
      exact fun column hm => column?_of_mem h.distinct hm
    | named list => exact hcolumns.2
  exact Row.inShape_setAll hnulls (admits_of_mem_zip hnames hfits hf)

/-- A valid insertion of finite values keeps a table consistent. -/
theorem consistent_insert {table : Table} {name : String} {s : Sql.Insert} (h : table.Consistent)
    (hv : Sql.Validation.insert name table.schema s = .ok ())
    (hf : ∀ tuple ∈ s.tuples, ∀ v ∈ tuple, v.isFinite = true) :
    (table.insert s).table.Consistent := by
  obtain ⟨columns, hc, hrest⟩ := bind_eq_ok_iff.mp hv
  obtain ⟨_, ht, _⟩ := bind_eq_ok_iff.mp hrest
  have htuples := forM_eq_ok_iff.mp ht
  refine ⟨h.distinct, fun row hr => ?_⟩
  rcases List.mem_append.mp hr with hr | hr
  · exact h.rows row hr
  · obtain ⟨tuple, hm, rfl⟩ := List.mem_map.mp hr
    have hrow := inShape_rowOfTuple h hc (htuples tuple hm) (hf tuple hm)
    exact hrow

/-- A valid change of finite values keeps a table consistent. -/
theorem consistent_update {table : Table} {name : String} {s : Sql.Update} (h : table.Consistent)
    (hv : Sql.Validation.update name table.schema s = .ok ())
    (hf : ∀ a ∈ s.assignments, a.value.isFinite = true) :
    (table.update s).table.Consistent := by
  obtain ⟨_, _, hrest⟩ := bind_eq_ok_iff.mp hv
  obtain ⟨_, ha, _⟩ := bind_eq_ok_iff.mp hrest
  have hadmits : ∀ pair ∈ s.assignments.map (fun a => (a.field, a.value)),
      Row.Admits table.schema pair := by
    intro pair hp
    obtain ⟨a, hm, rfl⟩ := List.mem_map.mp hp
    exact ⟨hf a hm, Sql.Validation.assignment_eq_ok_iff.mp (forM_eq_ok_iff.mp ha a hm)⟩
  refine ⟨h.distinct, fun row hr => ?_⟩
  obtain ⟨old, hm, rfl⟩ := List.mem_map.mp hr
  split
  · exact Row.inShape_setAll (h.rows old hm) hadmits
  · exact h.rows old hm

/-- Removing rows keeps a table consistent. -/
theorem consistent_delete {table : Table} (h : table.Consistent) (s : Sql.Delete) :
    (table.delete s).table.Consistent :=
  ⟨h.distinct, fun row hr => h.rows row (List.mem_of_mem_filter hr)⟩

/-- A new table is consistent if its columns have distinct names. -/
theorem consistent_ofSchema {columns : List Column}
    (h : Sql.Validation.definitions columns = .ok ()) : (ofSchema columns).Consistent :=
  ⟨Sql.Validation.distinct_eq_ok_iff.mp h, List.forall_mem_nil _⟩

end Table

/-! ## Documents -/

namespace Document

/-- A document is consistent if all of its tables are. -/
def Consistent (document : Document) : Prop :=
  ∀ pair ∈ document.tables, pair.2.Consistent

/-- The document without tables is consistent. -/
theorem consistent_empty : empty.Consistent :=
  List.forall_mem_nil _

/-- What is found under a name is there. -/
theorem mem_of_find? {document : Document} {name : String} {table : Table}
    (h : document.find? name = some table) : (name, table) ∈ document.tables := by
  obtain ⟨tables, hi⟩ := document
  simp only [find?] at h ⊢
  clear hi
  induction tables with
  | nil => cases h
  | cons pair rest ih =>
    obtain ⟨key, first⟩ := pair
    rw [lookup] at h
    split at h
    next he =>
      cases h
      rw [he]
      exact List.mem_cons_self ..
    next => exact List.mem_cons_of_mem _ (ih h)

/-- Every pair after putting is the put one or was there. -/
theorem eq_or_mem_of_mem_put {name : String} {table : Table} {pairs : List (String × Table)}
    {pair : String × Table} (h : pair ∈ put name table pairs) :
    pair = (name, table) ∨ pair ∈ pairs := by
  induction pairs with
  | nil => exact .inl (List.mem_singleton.mp h)
  | cons first rest ih =>
    obtain ⟨key, old⟩ := first
    rw [put] at h
    split at h
    · rcases List.mem_cons.mp h with rfl | h
      · exact .inl rfl
      · exact .inr h
    · split at h
      next he =>
        rcases List.mem_cons.mp h with rfl | h
        · exact .inl (by rw [he])
        · exact .inr (List.mem_cons_of_mem _ h)
      next =>
        rcases List.mem_cons.mp h with rfl | h
        · exact .inr (List.mem_cons_self ..)
        · exact (ih h).imp_right (List.mem_cons_of_mem _)

/-- Putting a consistent table into a consistent document keeps it consistent. -/
theorem consistent_insert {document : Document} {table : Table} (h : document.Consistent)
    (ht : table.Consistent) (name : String) : (document.insert name table).Consistent := by
  intro pair hp
  rcases eq_or_mem_of_mem_put hp with rfl | hp
  · exact ht
  · exact h pair hp

/-- Taking a table out of a consistent document keeps it consistent. -/
theorem consistent_erase {document : Document} (h : document.Consistent) (name : String) :
    (document.erase name).Consistent :=
  fun pair hp => h pair (List.mem_of_mem_filter hp)

end Document

end EmbeddedSql
