import EmbeddedSql.Proofs.Table.Changes

/-!
# Rows made by setting columns

Whatever columns a row is made of by setting them one after another, their names stand in
the order of their first settings, and every column has the value of its last one. A choice
of columns makes such a row of the values of another row: it has each of the chosen columns
once, and none of them is left out if the other row has them all.
-/

namespace EmbeddedSql

namespace Row

/-! ## The names -/

/-- Distinct names stay as they are. -/
theorem eraseDups_of_nodup {names : List String} (h : names.Nodup) : names.eraseDups = names := by
  induction names with
  | nil => rfl
  | cons name rest ih =>
    obtain ⟨hname, hrest⟩ := List.nodup_cons.mp h
    have hkept : rest.filter (fun other => !other == name) = rest :=
      List.filter_eq_self.mpr fun other ho => by
        simpa using fun he : other = name => hname (he ▸ ho)
    rw [List.eraseDups_cons, hkept, ih hrest]

/-- A name that was there before adds nothing. -/
theorem eraseDups_append_cons_of_mem {names : List String} {name : String} (h : name ∈ names)
    (rest : List String) : (names ++ name :: rest).eraseDups = (names ++ rest).eraseDups := by
  rw [List.eraseDups_append, List.eraseDups_append, List.removeAll, List.removeAll,
    List.filter_cons_of_neg (by simpa using h)]

/-- Setting a column keeps the names distinct. -/
theorem nodup_names_set {row : Row} (h : row.names.Nodup) (name : String) (value : Value) :
    (row.set name value).names.Nodup := by
  rw [names_set]
  split
  · exact h
  next hn =>
    refine List.nodup_append.mpr ⟨h, List.pairwise_singleton _ name, ?_⟩
    rintro a ha b hb rfl
    exact hn (List.mem_singleton.mp hb ▸ ha)

/-- Columns stand in the order of their first settings, behind those that were there. -/
theorem names_setAll {row : Row} (h : row.names.Nodup) (pairs : List (String × Value)) :
    (row.setAll pairs).names = (row.names ++ pairs.map Prod.fst).eraseDups := by
  induction pairs generalizing row with
  | nil => rw [List.map_nil, List.append_nil, eraseDups_of_nodup h, setAll, List.foldl_nil]
  | cons pair rest ih =>
    obtain ⟨name, value⟩ := pair
    have hset := names_set row name value
    rw [setAll, List.foldl_cons, ← setAll, List.map_cons, ih (nodup_names_set h name value)]
    by_cases hm : name ∈ row.names
    · rw [hset, if_pos hm, eraseDups_append_cons_of_mem hm]
    · rw [hset, if_neg hm, List.append_assoc, List.singleton_append]

/-- The names of a row stand in the order in which they were first set. -/
theorem names_ofList (pairs : List (String × Value)) :
    (ofList pairs).names = (pairs.map Prod.fst).eraseDups :=
  @names_setAll empty List.nodup_nil pairs

/-- The names of a row made by setting columns are distinct. -/
theorem nodup_names_ofList (pairs : List (String × Value)) : (ofList pairs).names.Nodup := by
  have hset (row : Row) (h : row.names.Nodup) : (row.setAll pairs).names.Nodup := by
    induction pairs generalizing row with
    | nil => exact h
    | cons pair rest ih => exact ih _ (nodup_names_set h pair.1 pair.2)
  exact hset empty List.nodup_nil

/-! ## The values -/

/-- The first pair of a name counts: one in front, and one behind if there is none. -/
theorem lookup_append (name : String) (front back : List (String × Value)) :
    lookup name (front ++ back) = (lookup name front).or (lookup name back) := by
  induction front with
  | nil => rfl
  | cons pair rest ih =>
    obtain ⟨column, value⟩ := pair
    rw [List.cons_append, lookup, lookup]
    split
    · rfl
    · exact ih

/-- A column has the value of its last setting, or the one from before if it was not set. -/
theorem get?_setAll (row : Row) (pairs : List (String × Value)) (name : String) :
    (row.setAll pairs).get? name = (lookup name pairs.reverse).or (row.get? name) := by
  induction pairs generalizing row with
  | nil => rfl
  | cons pair rest ih =>
    obtain ⟨column, value⟩ := pair
    rw [setAll, List.foldl_cons, ← setAll, ih, get?_set, List.reverse_cons, lookup_append,
      Option.or_assoc]
    by_cases he : column = name
    · simp [lookup, he]
    · simp [lookup, he]

/-- Where the value of a column is given by its name, so is what is found under the name. -/
theorem lookup_map_of_mem {names : List String} {name : String} (h : name ∈ names)
    (value : String → Value) :
    lookup name (names.map fun other => (other, value other)) = some (value name) := by
  induction names with
  | nil => cases h
  | cons first rest ih =>
    rw [List.map_cons, lookup]
    split
    next he => rw [he]
    next hne => exact ih ((List.mem_cons.mp h).resolve_left (Ne.symm hne))

/-- With distinct names, what is found is what is there. -/
theorem lookup_eq_some_iff {pairs : List (String × Value)} (h : (pairs.map Prod.fst).Nodup)
    {name : String} {value : Value} : lookup name pairs = some value ↔ (name, value) ∈ pairs := by
  induction pairs with
  | nil => simp [lookup]
  | cons pair rest ih =>
    obtain ⟨column, first⟩ := pair
    obtain ⟨hcolumn, hrest⟩ := List.nodup_cons.mp h
    rw [lookup, List.mem_cons, Prod.mk.injEq]
    split
    next he =>
      subst he
      have habsent : (column, value) ∉ rest := fun hm =>
        hcolumn (List.mem_map.mpr ⟨_, hm, rfl⟩)
      simp [habsent, eq_comm]
    next hne => simp [ih hrest, Ne.symm hne]

/-- A row has a value for each of its columns. -/
theorem exists_get?_of_mem {row : Row} {name : String} (h : name ∈ row.names) :
    ∃ value, row.get? name = some value := by
  obtain ⟨columns⟩ := row
  simp only [names, get?] at h ⊢
  induction columns with
  | nil => cases h
  | cons pair rest ih =>
    obtain ⟨column, value⟩ := pair
    rw [lookup]
    split
    · exact ⟨value, rfl⟩
    next hne => exact ih ((List.mem_cons.mp h).resolve_left (Ne.symm hne))

/-! ## Chosen columns -/

/-- A row shows columns of another one if it has exactly these, each with the value that
it has there. -/
structure Shows (columns : List String) (row shown : Row) : Prop where
  /-- The columns, in order. -/
  names : shown.names = columns
  /-- Each has the value of the other row, which has one. -/
  values : ∀ name ∈ columns, ∃ value, row.get? name = some value ∧ shown.get? name = some value

end Row

namespace Sql.Fields

/-- The columns of the rows that a choice gives back: all of the table's, or the named ones
in the order of their first mention. -/
def columns (schema : List Column) : Fields → List String
  | .all => schema.map (·.name)
  | .named list => list.eraseDups

/-- If a row has all columns of the table, what is chosen of it shows the chosen columns. -/
theorem shows_select {schema : List Column} {fields : Fields} {row : Row}
    (hrow : row.names = schema.map (·.name))
    (hfields : ∀ name ∈ fields.names, name ∈ schema.map (·.name)) :
    row.Shows (fields.columns schema) (fields.select row) := by
  cases fields with
  | all =>
    refine ⟨hrow, fun name hname => ?_⟩
    obtain ⟨value, hvalue⟩ := Row.exists_get?_of_mem (hrow ▸ hname : name ∈ row.names)
    exact ⟨value, hvalue, hvalue⟩
  | named list =>
    let stored (name : String) : Value := (row.get? name).getD .null
    have hget (name : String) (hname : name ∈ list) : row.get? name = some (stored name) := by
      obtain ⟨value, hvalue⟩ := Row.exists_get?_of_mem (hrow ▸ hfields name hname)
      simp only [stored, hvalue, Option.getD_some]
    have hselect : (Fields.named list).select row =
        .ofList (list.map fun name => (name, stored name)) := by
      rw [select]
      refine congrArg Row.ofList ?_
      rw [← List.filterMap_eq_map]
      refine List.filterMap_congr fun name hname => ?_
      rw [hget name hname]
      rfl
    rw [hselect]
    constructor
    · rw [Row.names_ofList, List.map_map]
      exact congrArg List.eraseDups (List.map_id list)
    · intro name hname
      have hmem : name ∈ list := List.mem_eraseDups.mp hname
      refine ⟨stored name, hget name hmem, ?_⟩
      rw [Row.ofList, Row.get?_setAll, ← List.map_reverse,
        Row.lookup_map_of_mem (List.mem_reverse.mpr hmem), Option.some_or]

end Sql.Fields

end EmbeddedSql
