import EmbeddedSql.Proofs.Table.Consistency
import Mathlib.Data.List.Duplicate

/-!
# Admissible statements

The rules that validation enforces, stated about the places of a statement
instead of about checks: the names of columns that it mentions, the names that
may not be repeated, the tuples, the comparisons, and the values together with
the columns that they are for. A statement is admissible if every place is in
order, and an error describes a violation if it names a place that is not. No
rule mentions the order of the checks or that the first failure ends them.
-/

namespace EmbeddedSql.Sql

open Result

/-! ## The places of a statement -/

namespace Statement

/-- The choice of columns of the rows that the statement gives back. -/
def results : Statement → Fields
  | .select s => s.fields
  | .insert s => s.returning
  | .update s => s.returning
  | .delete s => s.returning
  | .create _ | .drop _ => .empty

/-- The choice of columns that the tuples of an insertion give. -/
def listed : Statement → Fields
  | .insert s => s.fields
  | _ => .empty

/-- The tuples of an insertion. -/
def tuples : Statement → List (List Value)
  | .insert s => s.tuples
  | _ => []

/-- The settings of an update. -/
def assignments : Statement → List Assignment
  | .update s => s.assignments
  | _ => []

/-- The comparisons of every group of the condition. -/
def comparisons : Statement → List Condition
  | .select s => s.conditions.flatten
  | .update s => s.conditions.flatten
  | .delete s => s.conditions.flatten
  | .insert _ | .create _ | .drop _ => []

/-- The columns that a tuple gives a value for: those of the table unless some
are listed. -/
def targets (schema : List Column) (s : Statement) : List String :=
  match s.listed with
  | .all => schema.map (·.name)
  | .named list => list

/-- Every name that stands for a column of the table. -/
def columnNames (s : Statement) : List String :=
  s.results.names ++ s.listed.names ++ s.assignments.map (·.field) ++ s.comparisons.map (·.field)

/-- The names that may not be repeated. -/
def distinctNames : Statement → List String
  | .insert s => s.fields.names
  | .update s => s.assignments.map (·.field)
  | .create s => s.columns.map (·.name)
  | .select _ | .delete _ | .drop _ => []

/-- Every value with the column that it is stored in or compared with. -/
def places (schema : List Column) (s : Statement) : List (String × Value) :=
  s.tuples.flatMap ((s.targets schema).zip ·) ++ s.assignments.map (fun a => (a.field, a.value)) ++
    s.comparisons.map (fun c => (c.field, c.value))

/-- A statement is admissible if its columns are there, no name is repeated that
may not be, tuples have a value for each column, and every value and comparison
suits its column. -/
structure Admissible (schema : List Column) (s : Statement) : Prop where
  /-- Every column exists. -/
  known : ∀ name ∈ s.columnNames, ∃ c ∈ schema, c.name = name
  /-- No column is given twice. -/
  distinct : s.distinctNames.Nodup
  /-- Every tuple has as many values as there are columns to give. -/
  counted : ∀ tuple ∈ s.tuples, tuple.length = (s.targets schema).length
  /-- Every value is null or of the type of its column. -/
  typed : ∀ place ∈ s.places schema, ∀ c ∈ schema, c.name = place.1 →
    place.2 = .null ∨ place.2.type? = some c.type
  /-- Every comparison by order is on numbers. -/
  ordered : ∀ comparison ∈ s.comparisons, comparison.operator.isOrdering = true →
    ∀ c ∈ schema, c.name = comparison.field → c.type = .numeric

/-- An error describes a violation if what it reports is found at a place of the
statement where a rule is broken. -/
inductive Violates (table : String) (schema : List Column) (s : Statement) :
    ValidationError → Prop where
  /-- A column that the table does not have. -/
  | unknown {name : String} (mentioned : name ∈ s.columnNames)
    (absent : ∀ c ∈ schema, c.name ≠ name) :
    Violates table schema s (.columnNotFound table name)
  /-- A column that is given twice. -/
  | repeated {name : String} (twice : s.distinctNames.Duplicate name) :
    Violates table schema s (.duplicateColumn name)
  /-- A tuple with a value too many or too few. -/
  | miscounted {tuple : List Value} (mentioned : tuple ∈ s.tuples)
    (length : tuple.length ≠ (s.targets schema).length) :
    Violates table schema s (.valueCountMismatch (s.targets schema).length tuple.length)
  /-- A value of another type than its column. -/
  | mistyped {c : Column} {v : Value} (column : c ∈ schema)
    (placed : (c.name, v) ∈ s.places schema) (given : v ≠ .null)
    (type : v.type? ≠ some c.type) :
    Violates table schema s (.typeMismatch c.name c.type v)
  /-- A comparison by order on something else than numbers. -/
  | unordered {c : Column} {comparison : Condition} (column : c ∈ schema)
    (mentioned : comparison ∈ s.comparisons) (field : c.name = comparison.field)
    (ordering : comparison.operator.isOrdering = true) (type : c.type ≠ .numeric) :
    Violates table schema s (.nonNumericComparison c.name comparison.operator c.type)

/-- An admissible statement violates nothing. -/
theorem Violates.not_admissible {table : String} {schema : List Column} {s : Statement}
    {e : ValidationError} (h : Violates table schema s e) : ¬ s.Admissible schema := by
  intro ha
  cases h with
  | @unknown name mentioned absent =>
    obtain ⟨c, hc, hname⟩ := ha.known name mentioned
    exact absent c hc hname
  | repeated twice => exact twice.not_nodup ha.distinct
  | @miscounted tuple mentioned length => exact length (ha.counted tuple mentioned)
  | mistyped column placed given type =>
    rcases ha.typed _ placed _ column rfl with hnull | htype
    · exact given hnull
    · exact type htype
  | @unordered c comparison column mentioned field ordering type =>
    exact type (ha.ordered comparison mentioned ordering c column field)

end Statement

/-! ## What a failed check reports -/

namespace Validation

variable {table : String} {schema : List Column} {e : ValidationError}

/-- A column that is found is one of the schema's and has the name. -/
theorem mem_of_column? {name : String} {c : Column} (h : Table.column? schema name = some c) :
    c ∈ schema ∧ c.name = name :=
  ⟨List.mem_of_find?_eq_some h, by simpa using List.find?_some h⟩

/-- A column that is not found is reported with its table, and the schema has none of the name.
-/
theorem column_eq_error {name : String} (h : column table schema name = .error e) :
    e = .columnNotFound table name ∧ ∀ c ∈ schema, c.name ≠ name := by
  unfold column at h
  split at h
  next => cases h
  next hn =>
    cases h
    exact ⟨rfl, by simpa [Table.column?] using hn⟩

/-- A reported name was seen before or stands in the list twice. -/
theorem firstRepeated_eq_some {seen names : List String} {name : String}
    (h : firstRepeated seen names = some name) :
    name ∈ names ∧ (name ∈ seen ∨ names.Duplicate name) := by
  induction names generalizing seen with
  | nil => cases h
  | cons first rest ih =>
    rw [firstRepeated] at h
    split at h
    next hs =>
      cases h
      exact ⟨List.mem_cons_self, .inl hs⟩
    next =>
      obtain ⟨hmem, hseen | htwice⟩ := ih h
      · rcases List.mem_cons.mp hseen with rfl | hseen
        · exact ⟨List.mem_cons_self, .inr (.cons_mem hmem)⟩
        · exact ⟨List.mem_cons_of_mem first hmem, .inl hseen⟩
      · exact ⟨List.mem_cons_of_mem first hmem, .inr htwice.cons_duplicate⟩

/-- A repeated name that is reported is repeated. -/
theorem distinct_eq_error {names : List String} (h : distinct names = .error e) :
    ∃ name, e = .duplicateColumn name ∧ names.Duplicate name := by
  unfold distinct at h
  split at h
  next => cases h
  next name hs =>
    cases h
    obtain ⟨-, hseen | htwice⟩ := firstRepeated_eq_some hs
    · cases hseen
    · exact ⟨name, rfl, htwice⟩

/-- A value that is reported is not null and has another type than the column. -/
theorem value_eq_error {c : Column} {v : Value} (h : value c v = .error e) :
    e = .typeMismatch c.name c.type v ∧ v ≠ .null ∧ v.type? ≠ some c.type := by
  unfold value at h
  split at h
  next => cases h
  next hv =>
    cases h
    exact ⟨rfl, not_or.mp (Value.fits_iff.not.mp hv)⟩

/-- Of the listed fields a reported one is missing in the schema. -/
theorem fields_eq_error {f : Fields} (h : fields table schema f = .error e) :
    ∃ name ∈ f.names, e = .columnNotFound table name ∧ ∀ c ∈ schema, c.name ≠ name := by
  obtain ⟨name, hmem, hname⟩ := exists_of_forM_eq_error h
  exact ⟨name, hmem, column_eq_error (map_eq_error_iff.mp hname)⟩

/-- A value that does not fit its column stands in the same place of the tuple. -/
theorem values_eq_error {columns : List Column} {tuple : List Value}
    (h : values columns tuple = .error e) :
    ∃ c v, (c, v) ∈ columns.zip tuple ∧ value c v = .error e := by
  induction columns generalizing tuple with
  | nil => cases h
  | cons c rest ih =>
    cases tuple with
    | nil => cases h
    | cons v more =>
      rw [values] at h
      rcases bind_eq_error_iff.mp h with hv | ⟨_, -, hrest⟩
      · exact ⟨c, v, List.mem_cons_self, hv⟩
      · obtain ⟨d, w, hmem, hw⟩ := ih hrest
        exact ⟨d, w, List.mem_cons_of_mem _ hmem, hw⟩

end Validation

/-! ## A reported error describes a violation -/

namespace Statement

open Validation

variable {table : String} {schema : List Column} {s : Statement} {e : ValidationError}

/-- A failed check of fields that the statement mentions reports a violation. -/
theorem violates_of_fields {f : Fields} (hf : ∀ name ∈ f.names, name ∈ s.columnNames)
    (h : fields table schema f = .error e) : Violates table schema s e := by
  obtain ⟨name, hmem, rfl, habsent⟩ := fields_eq_error h
  exact .unknown (hf name hmem) habsent

/-- A failed look-up of a column that the statement mentions reports a violation. -/
theorem violates_of_column {name : String} (hn : name ∈ s.columnNames)
    (h : column table schema name = .error e) : Violates table schema s e := by
  obtain ⟨rfl, habsent⟩ := column_eq_error h
  exact .unknown hn habsent

/-- A failed check of the names that must be distinct reports a violation. -/
theorem violates_of_distinct {names : List String} (hn : s.distinctNames = names)
    (h : distinct names = .error e) : Violates table schema s e := by
  obtain ⟨name, rfl, htwice⟩ := distinct_eq_error h
  exact .repeated (hn ▸ htwice)

/-- A failed check of a value at one of the statement's places reports a violation. -/
theorem violates_of_value {c : Column} {v : Value} (hc : c ∈ schema)
    (hp : (c.name, v) ∈ s.places schema) (h : value c v = .error e) :
    Violates table schema s e := by
  obtain ⟨rfl, hnull, htype⟩ := value_eq_error h
  exact .mistyped hc hp hnull htype

/-- The column of a comparison is mentioned by the statement. -/
theorem mem_columnNames_of_comparison {comparison : Condition}
    (h : comparison ∈ s.comparisons) : comparison.field ∈ s.columnNames :=
  List.mem_append_right _ (List.mem_map_of_mem h)

/-- The column of an assignment is mentioned by the statement. -/
theorem mem_columnNames_of_assignment {a : Assignment} (h : a ∈ s.assignments) :
    a.field ∈ s.columnNames :=
  List.mem_append_left _ (List.mem_append_right _ (List.mem_map_of_mem h))

/-- The value of a comparison is at a place of the statement. -/
theorem mem_places_of_comparison {comparison : Condition} (h : comparison ∈ s.comparisons) :
    (comparison.field, comparison.value) ∈ s.places schema :=
  List.mem_append_right _ (List.mem_map.mpr ⟨comparison, h, rfl⟩)

/-- The value of an assignment is at a place of the statement. -/
theorem mem_places_of_assignment {a : Assignment} (h : a ∈ s.assignments) :
    (a.field, a.value) ∈ s.places schema :=
  List.mem_append_left _ (List.mem_append_right _ (List.mem_map.mpr ⟨a, h, rfl⟩))

/-- Each value of a tuple, with the column that it is for, is at a place of the statement. -/
theorem mem_places_of_tuple {tuple : List Value} {place : String × Value} (h : tuple ∈ s.tuples)
    (hp : place ∈ (s.targets schema).zip tuple) : place ∈ s.places schema :=
  List.mem_append_left _ (List.mem_append_left _ (List.mem_flatMap.mpr ⟨tuple, h, hp⟩))

/-- A failed check of the conditions of a statement reports a violation. -/
theorem violates_of_conditions {groups : Conditions} (hg : s.comparisons = groups.flatten)
    (h : conditions table schema groups = .error e) : Violates table schema s e := by
  obtain ⟨comparison, hmem, hcomparison⟩ := exists_of_forM_eq_error h
  rw [← hg] at hmem
  rcases bind_eq_error_iff.mp hcomparison with hcolumn | ⟨c, hcolumn, hrest⟩
  · exact violates_of_column (mem_columnNames_of_comparison hmem) hcolumn
  · obtain ⟨hc, hname⟩ := mem_of_column? (column_eq_ok_iff.mp hcolumn)
    split at hrest
    next hordering =>
      obtain ⟨hoperator, htype⟩ := Bool.and_eq_true_iff.mp hordering
      cases hrest
      exact .unordered hc hmem hname hoperator (bne_iff_ne.mp htype)
    next => exact violates_of_value hc (hname ▸ mem_places_of_comparison hmem) hrest

/-- A failed check of one of the assignments reports a violation. -/
theorem violates_of_assignment {a : Assignment} (ha : a ∈ s.assignments)
    (h : assignment table schema a = .error e) : Violates table schema s e := by
  rcases bind_eq_error_iff.mp h with hcolumn | ⟨c, hcolumn, hvalue⟩
  · exact violates_of_column (mem_columnNames_of_assignment ha) hcolumn
  · obtain ⟨hc, hname⟩ := mem_of_column? (column_eq_ok_iff.mp hcolumn)
    exact violates_of_value hc (hname ▸ mem_places_of_assignment ha) hvalue

/-- The columns that tuples are checked against are columns of the table, and
their names are the targets. -/
theorem targets_of_insertColumns {i : Insert} {columns : List Column}
    (h : insertColumns table schema i.fields = .ok columns) :
    (insert i).targets schema = columns.map (·.name) ∧ ∀ c ∈ columns, c ∈ schema := by
  have hcolumns := insertColumns_eq_ok_iff.mp h
  cases hf : i.fields with
  | all =>
    rw [hf] at hcolumns
    exact ⟨by simp only [targets, listed, hf, hcolumns], fun c hc => hcolumns ▸ hc⟩
  | named list =>
    rw [hf] at hcolumns
    have hfound := hcolumns.2.imp fun _ _ hc => mem_of_column? hc
    constructor
    · simp only [targets, listed, hf]
      rw [← List.forall₂_eq_eq_eq, List.forall₂_map_right_iff]
      exact hfound.imp fun _ _ hc => hc.2.symm
    · intro c hc
      obtain ⟨_, -, hmem, -⟩ := exists_of_mem_forall₂ hfound hc
      exact hmem

/-- A failed check of one of the tuples of an INSERT reports a violation. -/
theorem violates_of_tuple {i : Insert} {columns : List Column} {values : List Value}
    (hi : insertColumns table schema i.fields = .ok columns) (ht : values ∈ i.tuples)
    (h : tuple columns values = .error e) : Violates table schema (insert i) e := by
  obtain ⟨htargets, hcolumns⟩ := targets_of_insertColumns hi
  have hlength : ((insert i).targets schema).length = columns.length := by
    rw [htargets, List.length_map]
  unfold Validation.tuple at h
  split at h
  next =>
    obtain ⟨c, v, hmem, hvalue⟩ := values_eq_error h
    have hplace : (c.name, v) ∈ ((insert i).targets schema).zip values := by
      rw [htargets, List.zip_map_left]
      exact List.mem_map.mpr ⟨(c, v), hmem, rfl⟩
    exact violates_of_value (hcolumns c (List.of_mem_zip hmem).1)
      (mem_places_of_tuple ht hplace) hvalue
  next hne =>
    cases h
    rw [← hlength] at hne ⊢
    exact .miscounted ht hne

/-- Whatever validation reports is found at a place of the statement where the
rule that the error is about is broken. -/
theorem violates_of_validate (h : s.validate table schema = .error e) :
    Violates table schema s e := by
  cases s with
  | select s =>
    rcases bind_eq_error_iff.mp h with hfields | ⟨_, -, hconditions⟩
    · exact violates_of_fields (fun _ hn => by simp [columnNames, results, hn]) hfields
    · exact violates_of_conditions rfl hconditions
  | insert s =>
    -- The checks are made one after another, and the first that fails is what is reported.
    rcases bind_eq_error_iff.mp h with hcolumns | ⟨columns, hcolumns, hrest⟩
    · unfold insertColumns at hcolumns
      split at hcolumns
      next => cases hcolumns
      next list hlist =>
        rcases bind_eq_error_iff.mp hcolumns with hdistinct | ⟨_, -, hmapped⟩
        · exact violates_of_distinct (by rw [distinctNames, hlist, Fields.names]) hdistinct
        · obtain ⟨name, hmem, hname⟩ := exists_of_mapM_eq_error hmapped
          exact violates_of_column (by simp [columnNames, listed, hlist, Fields.names, hmem]) hname
    · rcases bind_eq_error_iff.mp hrest with htuples | ⟨_, -, hfields⟩
      · obtain ⟨values, hmem, hvalues⟩ := exists_of_forM_eq_error htuples
        exact violates_of_tuple hcolumns hmem hvalues
      · exact violates_of_fields (fun _ hn => by simp [columnNames, results, hn]) hfields
  | update s =>
    rcases bind_eq_error_iff.mp h with hdistinct | ⟨_, -, hrest⟩
    · exact violates_of_distinct rfl hdistinct
    · rcases bind_eq_error_iff.mp hrest with hassignments | ⟨_, -, hrest⟩
      · obtain ⟨a, hmem, ha⟩ := exists_of_forM_eq_error hassignments
        exact violates_of_assignment hmem ha
      · rcases bind_eq_error_iff.mp hrest with hconditions | ⟨_, -, hfields⟩
        · exact violates_of_conditions rfl hconditions
        · exact violates_of_fields (fun _ hn => by simp [columnNames, results, hn]) hfields
  | delete s =>
    rcases bind_eq_error_iff.mp h with hconditions | ⟨_, -, hfields⟩
    · exact violates_of_conditions rfl hconditions
    · exact violates_of_fields (fun _ hn => by simp [columnNames, results, hn]) hfields
  | create s => exact violates_of_distinct rfl h
  | drop s => cases h

/-! ## What validation lets pass is admissible -/

/-- A column with the name is there and takes the value. -/
def Takes (schema : List Column) (name : String) (v : Value) : Prop :=
  ∃ c ∈ schema, c.name = name ∧ (v = .null ∨ v.type? = some c.type)

/-- Fields that pass their check are columns of the schema. -/
theorem known_of_fields {f : Fields} (h : fields table schema f = .ok ()) :
    ∀ name ∈ f.names, ∃ c ∈ schema, c.name = name := by
  intro name hname
  obtain ⟨c, hc, -⟩ := map_eq_ok_iff.mp (forM_eq_ok_iff.mp h name hname)
  exact ⟨c, mem_of_column? (column_eq_ok_iff.mp hc)⟩

/-- Assignments that pass their check are to columns that take the values. -/
theorem takes_of_assignments {list : List Assignment}
    (h : list.forM (assignment table schema) = .ok ()) :
    ∀ a ∈ list, Takes schema a.field a.value := by
  intro a ha
  obtain ⟨c, hc, hv⟩ := assignment_eq_ok_iff.mp (forM_eq_ok_iff.mp h a ha)
  obtain ⟨hmem, hname⟩ := mem_of_column? hc
  exact ⟨c, hmem, hname, Value.fits_iff.mp hv⟩

/-- Conditions that pass their check compare columns with values that these take, and only
numeric columns by order. -/
theorem takes_of_conditions {groups : Conditions} (h : conditions table schema groups = .ok ()) :
    ∀ comparison ∈ groups.flatten, Takes schema comparison.field comparison.value ∧
      (comparison.operator.isOrdering = true →
        ∃ c ∈ schema, c.name = comparison.field ∧ c.type = .numeric) := by
  intro comparison hcomparison
  obtain ⟨c, hc, hrest⟩ := bind_eq_ok_iff.mp (forM_eq_ok_iff.mp h comparison hcomparison)
  obtain ⟨hmem, hname⟩ := mem_of_column? (column_eq_ok_iff.mp hc)
  split at hrest
  next => cases hrest
  next hordering =>
    refine ⟨⟨c, hmem, hname, Value.fits_iff.mp (value_eq_ok_iff.mp hrest)⟩, fun ho => ?_⟩
    have htype : c.type = .numeric := by simpa [ho] using hordering
    exact ⟨c, hmem, hname, htype⟩

/-- Tuples that pass their check have for each target a value that it takes. -/
theorem takes_of_tuples {i : Insert} {columns : List Column}
    (hi : insertColumns table schema i.fields = .ok columns)
    (h : i.tuples.forM (tuple columns) = .ok ()) :
    ∀ values ∈ i.tuples, List.Forall₂ (Takes schema) ((insert i).targets schema) values := by
  intro values hvalues
  obtain ⟨htargets, hcolumns⟩ := targets_of_insertColumns hi
  have hfits := tuple_eq_ok_iff.mp (forM_eq_ok_iff.mp h values hvalues)
  rw [htargets, List.forall₂_map_left_iff]
  have htakes := (List.forall₂_and_left columns values).mpr ⟨hcolumns, hfits⟩
  exact htakes.imp fun c v hc => ⟨c, hc.1, rfl, Value.fits_iff.mp hc.2⟩

/-- With distinct names, what one column of a name takes, every column of that
name takes. -/
theorem Takes.type {name : String} {v : Value} (h : Takes schema name v)
    (hd : (schema.map (·.name)).Nodup) {c : Column} (hc : c ∈ schema) (hname : c.name = name) :
    v = .null ∨ v.type? = some c.type := by
  obtain ⟨d, hmem, hdname, htype⟩ := h
  obtain rfl := List.inj_on_of_nodup_map hd hc hmem (hname.trans hdname.symm)
  exact htype

/-- A statement is admissible if its parts are: the columns wanted back and the
listed ones are known, and every value is taken. -/
theorem admissible_of_parts (hd : (schema.map (·.name)).Nodup)
    (hresults : ∀ name ∈ s.results.names, ∃ c ∈ schema, c.name = name)
    (hlisted : ∀ name ∈ s.listed.names, ∃ c ∈ schema, c.name = name)
    (hdistinct : s.distinctNames.Nodup)
    (htuples : ∀ values ∈ s.tuples, List.Forall₂ (Takes schema) (s.targets schema) values)
    (hassignments : ∀ a ∈ s.assignments, Takes schema a.field a.value)
    (hcomparisons : ∀ comparison ∈ s.comparisons,
      Takes schema comparison.field comparison.value ∧ (comparison.operator.isOrdering = true →
        ∃ c ∈ schema, c.name = comparison.field ∧ c.type = .numeric)) :
    s.Admissible schema where
  known name hname := by
    have exists_of_takes {name : String} {v : Value} (h : Takes schema name v) :
        ∃ c ∈ schema, c.name = name := by
      obtain ⟨c, hc, hname, -⟩ := h
      exact ⟨c, hc, hname⟩
    rcases List.mem_append.mp hname with hname | hname
    · rcases List.mem_append.mp hname with hname | hname
      · rcases List.mem_append.mp hname with hname | hname
        · exact hresults name hname
        · exact hlisted name hname
      · obtain ⟨a, ha, rfl⟩ := List.mem_map.mp hname
        exact exists_of_takes (hassignments a ha)
    · obtain ⟨comparison, hmem, rfl⟩ := List.mem_map.mp hname
      exact exists_of_takes (hcomparisons comparison hmem).1
  distinct := hdistinct
  counted values hvalues := (htuples values hvalues).length_eq.symm
  typed place hplace c hc hname := by
    rcases List.mem_append.mp hplace with hplace | hplace
    · rcases List.mem_append.mp hplace with hplace | hplace
      · obtain ⟨values, hvalues, hzip⟩ := List.mem_flatMap.mp hplace
        have htakes := (List.forall₂_iff_zip.mp (htuples values hvalues)).2 hzip
        exact htakes.type hd hc hname
      · obtain ⟨a, ha, rfl⟩ := List.mem_map.mp hplace
        exact (hassignments a ha).type hd hc hname
    · obtain ⟨comparison, hmem, rfl⟩ := List.mem_map.mp hplace
      exact (hcomparisons comparison hmem).1.type hd hc hname
  ordered comparison hmem hordering c hc hname := by
    obtain ⟨d, hd', hdname, htype⟩ := (hcomparisons comparison hmem).2 hordering
    obtain rfl := List.inj_on_of_nodup_map hd hc hd' (hname.trans hdname.symm)
    exact htype

/-- A statement that passes validation is admissible if the columns of the table have distinct
names. -/
theorem admissible_of_validate (hd : (schema.map (·.name)).Nodup)
    (h : s.validate table schema = .ok ()) : s.Admissible schema := by
  cases s with
  | select s =>
    obtain ⟨_, hfields, hconditions⟩ := bind_eq_ok_iff.mp h
    exact admissible_of_parts hd (known_of_fields hfields) (List.forall_mem_nil _) .nil
      (List.forall_mem_nil _) (List.forall_mem_nil _) (takes_of_conditions hconditions)
  | insert s =>
    obtain ⟨columns, hcolumns, hrest⟩ := bind_eq_ok_iff.mp h
    obtain ⟨_, htuples, hfields⟩ := bind_eq_ok_iff.mp hrest
    -- The listed columns are checked for repetition and for being there before any value is.
    have hlisted : s.fields.names.Nodup ∧
        ∀ name ∈ s.fields.names, ∃ c ∈ schema, c.name = name := by
      have hfound := insertColumns_eq_ok_iff.mp hcolumns
      cases hf : s.fields with
      | all => exact ⟨.nil, List.forall_mem_nil _⟩
      | named list =>
        rw [hf] at hfound
        refine ⟨hfound.1, fun name hname => ?_⟩
        obtain ⟨c, -, hc⟩ := exists_of_mem_forall₂ hfound.2.flip hname
        exact ⟨c, mem_of_column? hc⟩
    exact admissible_of_parts hd (known_of_fields hfields) hlisted.2 hlisted.1
      (takes_of_tuples hcolumns htuples) (List.forall_mem_nil _) (List.forall_mem_nil _)
  | update s =>
    obtain ⟨_, hdistinct, hrest⟩ := bind_eq_ok_iff.mp h
    obtain ⟨_, hassignments, hrest⟩ := bind_eq_ok_iff.mp hrest
    obtain ⟨_, hconditions, hfields⟩ := bind_eq_ok_iff.mp hrest
    exact admissible_of_parts hd (known_of_fields hfields) (List.forall_mem_nil _)
      (distinct_eq_ok_iff.mp hdistinct) (List.forall_mem_nil _)
      (takes_of_assignments hassignments) (takes_of_conditions hconditions)
  | delete s =>
    obtain ⟨_, hconditions, hfields⟩ := bind_eq_ok_iff.mp h
    exact admissible_of_parts hd (known_of_fields hfields) (List.forall_mem_nil _) .nil
      (List.forall_mem_nil _) (List.forall_mem_nil _) (takes_of_conditions hconditions)
  | create s =>
    exact admissible_of_parts hd (List.forall_mem_nil _) (List.forall_mem_nil _)
      (distinct_eq_ok_iff.mp h) (List.forall_mem_nil _) (List.forall_mem_nil _)
      (List.forall_mem_nil _)
  | drop s =>
    exact admissible_of_parts hd (List.forall_mem_nil _) (List.forall_mem_nil _) .nil
      (List.forall_mem_nil _) (List.forall_mem_nil _) (List.forall_mem_nil _)

/-- On a table whose columns have distinct names, validation accepts exactly the
admissible statements, and an error that it reports describes a violation. -/
theorem validate_eq_ok_iff_admissible (table : String) (schema : List Column)
    (hd : (schema.map (·.name)).Nodup) (s : Statement) :
    (s.validate table schema = .ok () ↔ s.Admissible schema) ∧
      ∀ e, s.validate table schema = .error e → Violates table schema s e := by
  refine ⟨⟨admissible_of_validate hd, fun ha => ?_⟩, fun e => violates_of_validate⟩
  cases hv : s.validate table schema with
  | ok _ => rfl
  | error e => exact absurd ha (violates_of_validate hv).not_admissible

/-- An insertion whose second tuple puts a text into a numeric column. -/
theorem validate_eq_ok_iff_admissible_insert :
    let schema : List Column := [⟨"id", .numeric⟩, ⟨"name", .text⟩]
    let s : Statement := .insert
      ⟨"users", .named ["name", "id"], [[.text "a", .null], [.null, .text "b"]], .named ["id"]⟩
    ((schema.map (·.name)).Nodup ∧
      s.validate "users" schema = .error (.typeMismatch "id" .numeric (.text "b"))) ∧
    ¬ s.Admissible schema ∧
      Violates "users" schema s (.typeMismatch "id" .numeric (.text "b")) := by
  have hd : (([⟨"id", .numeric⟩, ⟨"name", .text⟩] : List Column).map (·.name)).Nodup := by decide
  obtain ⟨hok, herror⟩ := validate_eq_ok_iff_admissible "users" _ hd (.insert
    ⟨"users", .named ["name", "id"], [[.text "a", .null], [.null, .text "b"]], .named ["id"]⟩)
  refine ⟨⟨hd, rfl⟩, fun ha => ?_, herror _ rfl⟩
  cases hok.mpr ha

end Statement

end EmbeddedSql.Sql
