import EmbeddedSql.Proofs.Table.Consistency

/-!
# What statements do to the rows of a table

A table whose rows have exactly its columns is a list of rows that statements
append to, overwrite in and take from. A new row gives every column its value:
the one in its place if the tuple is for all columns, the one under its name if
columns are listed, and null otherwise.
-/

namespace EmbeddedSql

namespace Row

/-- A row with new values in the columns that have one. -/
def overwrite (row : Row) (pairs : List (String × Value)) : Row :=
  ⟨row.columns.map fun pair => (pair.1, (lookup pair.1 pairs).getD pair.2)⟩

/-- New values leave the columns of a row where they are. -/
theorem names_overwrite (row : Row) (pairs : List (String × Value)) :
    (row.overwrite pairs).names = row.names := by
  rw [names, names, overwrite, List.map_map]
  rfl

/-- Nothing is found under a name that is not there. -/
theorem lookup_of_not_mem {name : String} {pairs : List (String × Value)}
    (h : name ∉ pairs.map Prod.fst) : lookup name pairs = none := by
  induction pairs with
  | nil => rfl
  | cons pair rest ih =>
    obtain ⟨column, value⟩ := pair
    rw [List.map_cons, List.mem_cons, not_or] at h
    rw [lookup, if_neg (Ne.symm h.1), ih h.2]

/-- Setting a column that is there changes its value and nothing else. -/
theorem put_of_mem {name : String} {columns : List (String × Value)} (value : Value)
    (hn : (columns.map Prod.fst).Nodup) (hm : name ∈ columns.map Prod.fst) :
    put name value columns =
      columns.map fun pair => (pair.1, if pair.1 = name then value else pair.2) := by
  induction columns with
  | nil => cases hm
  | cons pair rest ih =>
    obtain ⟨column, old⟩ := pair
    rw [List.map_cons, List.nodup_cons] at hn
    rw [put, List.map_cons]
    split
    next hc =>
      have hrest : rest.map (fun pair => (pair.1, if pair.1 = name then value else pair.2)) =
          rest := by
        refine (List.map_congr_left fun other ho => ?_).trans (List.map_id rest)
        have ho : other.1 ∈ rest.map Prod.fst := List.mem_map_of_mem ho
        have hne : other.1 ≠ name := fun he => hn.1 (hc.trans he.symm ▸ ho)
        rw [if_neg hne]
        rfl
      rw [hrest]
    next hc =>
      have hrest := (List.mem_cons.mp hm).resolve_left (Ne.symm hc)
      rw [ih hn.2 hrest]

/-- Setting distinct columns that are there overwrites their values. -/
theorem setAll_eq_overwrite {row : Row} {pairs : List (String × Value)} (hn : row.names.Nodup)
    (hp : (pairs.map Prod.fst).Nodup) (hm : ∀ pair ∈ pairs, pair.1 ∈ row.names) :
    row.setAll pairs = row.overwrite pairs := by
  induction pairs generalizing row with
  | nil =>
    rw [overwrite]
    exact congrArg Row.mk (List.map_id row.columns).symm
  | cons pair rest ih =>
    obtain ⟨name, value⟩ := pair
    obtain ⟨hname, hrest⟩ := List.forall_mem_cons.mp hm
    rw [List.map_cons, List.nodup_cons] at hp
    have hset : row.set name value = row.overwrite [(name, value)] := by
      rw [set, overwrite, put_of_mem value hn hname]
      refine congrArg Row.mk (List.map_congr_left fun other _ => ?_)
      by_cases he : other.1 = name
      · simp [lookup, he]
      · simp [lookup, he, Ne.symm he]
    have hnames : (row.overwrite [(name, value)]).names = row.names := names_overwrite _ _
    have hnext := @ih (row.overwrite [(name, value)]) (hnames ▸ hn) hp.2 (hnames ▸ hrest)
    rw [setAll, List.foldl_cons, hset, ← setAll, hnext, overwrite, overwrite, overwrite,
      List.map_map]
    refine congrArg Row.mk (List.map_congr_left fun other _ => ?_)
    by_cases he : name = other.1
    · have hnone : lookup other.1 rest = none := lookup_of_not_mem (he ▸ hp.1)
      simp [lookup, he, hnone]
    · simp [lookup, he]

end Row

namespace Table

/-- The row that a tuple stands for in a table with the given columns. -/
def placed (columns : List Column) (fields : Sql.Fields) (tuple : List Value) : Row :=
  match fields with
  | .all => ⟨(columns.map (·.name)).zip tuple⟩
  | .named names =>
    ⟨columns.map fun column =>
      (column.name, (Row.lookup column.name (names.zip tuple)).getD .null)⟩

end Table

/-- What a statement does to the rows of a table with the given columns. -/
def Sql.Statement.change (columns : List Column) (rows : List Row) : Sql.Statement → List Row
  | .insert s => rows ++ s.tuples.map (Table.placed columns s.fields)
  | .update s => rows.map fun row =>
    if s.conditions.accept row then
      row.overwrite (s.assignments.map fun a => (a.field, a.value))
    else row
  | .delete s => rows.filter fun row => !s.conditions.accept row
  | _ => rows

namespace Table

/-- A table whose columns have distinct names and whose rows have these names. -/
structure Regular (table : Table) : Prop where
  /-- The names of the columns are distinct. -/
  distinct : table.columnNames.Nodup
  /-- Every row has them, in order. -/
  rows : ∀ row ∈ table.rows, row.names = table.columnNames

/-- A consistent table is regular: the pairs of its rows have the names of its columns. -/
theorem Consistent.regular {table : Table} (h : table.Consistent) : table.Regular := by
  refine ⟨h.distinct, fun row hrow => ?_⟩
  have hnames : List.Forall₂ (· = ·) table.columnNames row.names :=
    List.forall₂_map_left_iff.mpr (List.forall₂_map_right_iff.mpr
      ((h.rows row hrow).imp fun column pair hp => hp.name.symm))
  rw [List.forall₂_eq_eq_eq] at hnames
  exact hnames.symm

/-- A column that is found is one of the table's. -/
theorem mem_columnNames_of_column? {table : Table} {name : String} {column : Column}
    (h : column? table.schema name = some column) : name ∈ table.columnNames := by
  have hname : column.name = name := by simpa using List.find?_some h
  exact hname ▸ List.mem_map_of_mem (List.mem_of_find?_eq_some h)

/-- In the place of each name stands its value. -/
theorem map_lookup_zip {names : List String} {tuple : List Value} (hn : names.Nodup)
    (hl : tuple.length = names.length) :
    (names.map fun name => (name, (Row.lookup name (names.zip tuple)).getD .null)) =
      names.zip tuple := by
  induction names generalizing tuple with
  | nil => rfl
  | cons name rest ih =>
    cases tuple with
    | nil => cases hl
    | cons value tuple =>
      rw [List.nodup_cons] at hn
      have hrest : (rest.map fun other =>
          (other, (Row.lookup other ((name, value) :: rest.zip tuple)).getD .null)) =
          rest.map fun other => (other, (Row.lookup other (rest.zip tuple)).getD .null) := by
        refine List.map_congr_left fun other ho => ?_
        have hne : name ≠ other := fun he => hn.1 (he ▸ ho)
        rw [Row.lookup, if_neg hne]
      rw [List.map_cons, List.zip_cons_cons, hrest, ih hn.2 (Nat.succ.inj hl), Row.lookup,
        if_pos rfl]
      rfl

/-- The names of a row of nulls. -/
theorem ofList_nulls {names : List String} (h : names.Nodup) :
    Row.ofList (names.map (·, .null)) = ⟨names.map (·, .null)⟩ := by
  have hnames : (([] ++ names.map fun name => (name, Value.null)).map Prod.fst).Nodup := by
    simpa [Function.comp_def] using h
  exact Row.setAll_of_nodup hnames

/-- A tuple that passes validation becomes the row that it stands for. -/
theorem rowOfTuple_eq_placed {table : Table} (h : table.Regular) {name : String}
    {fields : Sql.Fields} {columns : List Column} {tuple : List Value}
    (hc : Sql.Validation.insertColumns name table.schema fields = .ok columns)
    (ht : Sql.Validation.tuple columns tuple = .ok ()) :
    table.rowOfTuple fields tuple = placed table.schema fields tuple ∧
      (placed table.schema fields tuple).names = table.columnNames := by
  have hlength := (Sql.Validation.tuple_eq_ok_iff.mp ht).length_eq
  have hcolumns := Sql.Validation.insertColumns_eq_ok_iff.mp hc
  -- Every row begins as one of nulls, and its columns are those of the table.
  have hnulls : (Row.ofList (table.columnNames.map (·, .null))).names = table.columnNames := by
    rw [ofList_nulls h.distinct, Row.names, List.map_map]
    exact List.map_id _
  cases fields with
  | all =>
    obtain rfl : columns = table.schema := hcolumns
    have htuple : tuple.length = table.columnNames.length := by
      rw [columnNames, List.length_map, hlength]
    have hfst : (table.columnNames.zip tuple).map Prod.fst = table.columnNames :=
      List.map_fst_zip (Nat.le_of_eq htuple.symm)
    have hmem (pair : String × Value) (hp : pair ∈ table.columnNames.zip tuple) :
        pair.1 ∈ (Row.ofList (table.columnNames.map (·, .null))).names := by
      rw [hnulls]
      exact (List.of_mem_zip hp).1
    refine ⟨?_, hfst⟩
    rw [rowOfTuple, insertColumns, Row.setAll_eq_overwrite (by rw [hnulls]; exact h.distinct)
      (by rw [hfst]; exact h.distinct) hmem, Row.overwrite, ofList_nulls h.distinct, List.map_map]
    exact congrArg Row.mk (map_lookup_zip h.distinct htuple)
  | named names =>
    obtain ⟨hdistinct, hfound⟩ := hcolumns
    have htuple : tuple.length = names.length := hlength.symm.trans hfound.length_eq.symm
    have hfst : (names.zip tuple).map Prod.fst = names :=
      List.map_fst_zip (Nat.le_of_eq htuple.symm)
    have hmem (pair : String × Value) (hp : pair ∈ names.zip tuple) :
        pair.1 ∈ (Row.ofList (table.columnNames.map (·, .null))).names := by
      rw [hnulls]
      obtain ⟨column, _, hf⟩ := Result.exists_of_mem_forall₂ hfound.flip (List.of_mem_zip hp).1
      exact mem_columnNames_of_column? hf
    constructor
    · rw [rowOfTuple, insertColumns, Row.setAll_eq_overwrite (by rw [hnulls]; exact h.distinct)
        (by rw [hfst]; exact hdistinct) hmem, Row.overwrite, ofList_nulls h.distinct, List.map_map,
        columnNames, List.map_map]
      rfl
    · rw [placed, Row.names, List.map_map]
      rfl

/-! ## Changes that pass validation -/

variable {table : Table} {name : String}

/-- What a valid change leaves: the columns, the rows as the statement changes them,
and the table itself if no row was concerned. -/
structure Follows (statement : Sql.Statement) (table : Table) (mutation : Mutation) : Prop where
  /-- The table afterwards. -/
  table_eq : mutation.table = ⟨table.schema, statement.change table.schema table.rows⟩
  /-- It is regular. -/
  regular : mutation.table.Regular
  /-- Nothing changes if no row was concerned. -/
  unaffected : mutation.affected = 0 → mutation.table = table

/-- An update that chooses no row leaves the table as it is. -/
theorem update_of_reject {s : Sql.Update}
    (h : ∀ row ∈ table.rows, s.conditions.accept row = false) :
    (table.update s).table = table ∧ (table.update s).affected = 0 := by
  have hsame : (table.rows.map fun row =>
      if s.conditions.accept row then assign s.assignments row else row) = table.rows :=
    (List.map_congr_left fun row hr => if_neg (Bool.eq_false_iff.mp (h row hr))).trans
      (List.map_id table.rows)
  have hnone : table.rows.filter s.conditions.accept = [] :=
    List.filter_eq_nil_iff.mpr fun row hr => Bool.eq_false_iff.mp (h row hr)
  rw [update, hsame, hnone]
  exact ⟨rfl, rfl⟩

/-- So does a deletion that chooses no row. -/
theorem delete_of_reject {s : Sql.Delete}
    (h : ∀ row ∈ table.rows, s.conditions.accept row = false) :
    (table.delete s).table = table ∧ (table.delete s).affected = 0 := by
  have hsame : (table.rows.filter fun row => !s.conditions.accept row) = table.rows :=
    List.filter_eq_self.mpr fun row hr => by simpa using h row hr
  have hnone : table.rows.filter s.conditions.accept = [] :=
    List.filter_eq_nil_iff.mpr fun row hr => Bool.eq_false_iff.mp (h row hr)
  rw [delete, hsame, hnone]
  exact ⟨rfl, rfl⟩

/-- A valid insertion appends the rows that its tuples stand for. -/
theorem follows_insert {s : Sql.Insert} (h : table.Regular)
    (hv : Sql.Validation.insert name table.schema s = .ok ()) :
    Follows (.insert s) table (table.insert s) := by
  obtain ⟨columns, hc, hrest⟩ := Result.bind_eq_ok_iff.mp hv
  obtain ⟨_, ht, _⟩ := Result.bind_eq_ok_iff.mp hrest
  have htuples := Result.forM_eq_ok_iff.mp ht
  have hrows : s.tuples.map (table.rowOfTuple s.fields) =
      s.tuples.map (placed table.schema s.fields) :=
    List.map_congr_left fun tuple hm => (rowOfTuple_eq_placed h hc (htuples tuple hm)).1
  have htable : (table.insert s).table =
      ⟨table.schema, table.rows ++ s.tuples.map (placed table.schema s.fields)⟩ := by
    rw [insert, hrows]
  refine ⟨htable, ⟨h.distinct, fun row hr => ?_⟩, fun ha => ?_⟩
  · rw [htable] at hr ⊢
    rcases List.mem_append.mp hr with hr | hr
    · exact h.rows row hr
    · obtain ⟨tuple, hm, rfl⟩ := List.mem_map.mp hr
      exact (rowOfTuple_eq_placed h hc (htuples tuple hm)).2
  · have hnone : s.tuples.map (table.rowOfTuple s.fields) = [] := List.length_eq_zero_iff.mp ha
    rw [insert, hnone, List.append_nil]

/-- The assignments of a valid update are to distinct columns of the table. -/
theorem assigned_of_update {s : Sql.Update}
    (hv : Sql.Validation.update name table.schema s = .ok ()) :
    ((s.assignments.map fun a => (a.field, a.value)).map Prod.fst).Nodup ∧
      ∀ a ∈ s.assignments, a.field ∈ table.columnNames := by
  obtain ⟨_, hd, hrest⟩ := Result.bind_eq_ok_iff.mp hv
  obtain ⟨_, ha, _⟩ := Result.bind_eq_ok_iff.mp hrest
  refine ⟨?_, fun a hm => ?_⟩
  · rw [List.map_map]
    exact Sql.Validation.distinct_eq_ok_iff.mp hd
  · obtain ⟨column, hf, _⟩ :=
      Sql.Validation.assignment_eq_ok_iff.mp (Result.forM_eq_ok_iff.mp ha a hm)
    exact mem_columnNames_of_column? hf

/-- They overwrite these columns in a row that has the columns of the table. -/
theorem assign_eq_overwrite (h : table.Regular) {s : Sql.Update}
    (hv : Sql.Validation.update name table.schema s = .ok ()) {row : Row}
    (hr : row.names = table.columnNames) : assign s.assignments row =
      row.overwrite (s.assignments.map fun a => (a.field, a.value)) := by
  obtain ⟨hdistinct, hassigned⟩ := assigned_of_update hv
  refine Row.setAll_eq_overwrite (hr ▸ h.distinct) hdistinct fun pair hp => ?_
  obtain ⟨a, hm, rfl⟩ := List.mem_map.mp hp
  rw [hr]
  exact hassigned a hm

/-- A valid update overwrites the assigned columns of the chosen rows. -/
theorem follows_update {s : Sql.Update} (h : table.Regular)
    (hv : Sql.Validation.update name table.schema s = .ok ()) :
    Follows (.update s) table (table.update s) := by
  have htable : (table.update s).table =
      ⟨table.schema, (Sql.Statement.update s).change table.schema table.rows⟩ := by
    rw [update, Sql.Statement.change]
    refine congrArg (Table.mk table.schema) (List.map_congr_left fun row hr => ?_)
    rw [assign_eq_overwrite h hv (h.rows row hr)]
  refine ⟨htable, ⟨h.distinct, fun row hr => ?_⟩, fun hz => ?_⟩
  · rw [htable] at hr ⊢
    obtain ⟨old, hm, rfl⟩ := List.mem_map.mp hr
    split
    · exact (Row.names_overwrite old _).trans (h.rows old hm)
    · exact h.rows old hm
  · have hnone : (table.rows.filter s.conditions.accept).map (assign s.assignments) = [] :=
      List.length_eq_zero_iff.mp hz
    have hreject := List.filter_eq_nil_iff.mp (List.map_eq_nil_iff.mp hnone)
    exact (update_of_reject fun row hr => Bool.eq_false_iff.mpr (hreject row hr)).1

/-- A deletion keeps the rows that are not chosen. -/
theorem follows_delete (h : table.Regular) (s : Sql.Delete) :
    Follows (.delete s) table (table.delete s) := by
  refine ⟨rfl, ⟨h.distinct, fun row hr => h.rows row (List.mem_of_mem_filter hr)⟩, fun hz => ?_⟩
  have hnone := List.filter_eq_nil_iff.mp (List.length_eq_zero_iff.mp hz)
  exact (delete_of_reject fun row hr => Bool.eq_false_iff.mpr (hnone row hr)).1

end Table

end EmbeddedSql
