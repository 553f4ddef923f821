import EmbeddedSql.Proofs.Result
import EmbeddedSql.Sql.Validation

/-!
# What validation asks for

Each check of the validation succeeds if and only if a condition holds that does
not mention checking: names are there or are distinct, values fit their columns,
tuples have a fitting value for each column.
-/

namespace EmbeddedSql.Sql.Validation

open Result

variable {table : String} {schema : List Column}

/-- A column is found by its check exactly if the table has it. -/
theorem column_eq_ok_iff {name : String} {c : Column} :
    column table schema name = .ok c ↔ Table.column? schema name = some c := by
  unfold column
  split
  next found hf => simp [hf]
  next hn => simp [hn]

/-- A name is reported if it was seen or is repeated. -/
theorem firstRepeated_eq_none_iff {seen names : List String} :
    firstRepeated seen names = none ↔ names.Nodup ∧ ∀ name ∈ names, name ∉ seen := by
  induction names generalizing seen with
  | nil => simp [firstRepeated]
  | cons name rest ih =>
    rw [firstRepeated, List.nodup_cons, List.forall_mem_cons]
    split
    next hs => simp [hs]
    next hs =>
      rw [ih]
      constructor
      · rintro ⟨hr, hn⟩
        have hm : name ∉ rest := fun hm => hn name hm (List.mem_cons_self ..)
        exact ⟨⟨hm, hr⟩, hs, fun other ho hseen => hn other ho (List.mem_cons_of_mem _ hseen)⟩
      · rintro ⟨⟨hm, hr⟩, -, hn⟩
        refine ⟨hr, fun other ho hseen => ?_⟩
        rcases List.mem_cons.mp hseen with rfl | hseen
        · exact hm ho
        · exact hn other ho hseen

/-- The check of repeated names lets pass exactly the lists without one. -/
theorem distinct_eq_ok_iff {names : List String} : distinct names = .ok () ↔ names.Nodup := by
  have hf := @firstRepeated_eq_none_iff [] names
  simp only [List.not_mem_nil, not_false_eq_true, implies_true, and_true] at hf
  rw [← hf]
  unfold distinct
  split
  next hn => simp [hn]
  next name hs => simp [hs]

/-- The check of a value lets pass exactly the values that fit the type of the column. -/
theorem value_eq_ok_iff {c : Column} {v : Value} :
    value c v = .ok () ↔ v.fits c.type = true := by
  unfold value
  split
  next hv => simp [hv]
  next hv => simp [hv]

/-- The check of a tuple that is as long as its columns lets it pass exactly if each value fits
its column. -/
theorem values_eq_ok_iff {columns : List Column} {tuple : List Value}
    (h : tuple.length = columns.length) :
    values columns tuple = .ok () ↔
      List.Forall₂ (fun (c : Column) (v : Value) => v.fits c.type = true) columns tuple := by
  induction columns generalizing tuple with
  | nil =>
    rw [List.length_nil, List.length_eq_zero_iff] at h
    simp [h, values]
  | cons c rest ih =>
    obtain ⟨v, more, rfl⟩ := List.exists_cons_of_length_eq_add_one h
    rw [values, bind_eq_ok_iff, List.forall₂_cons, ← ih (Nat.succ.inj h), ← value_eq_ok_iff]
    exact ⟨fun ⟨_, hv, hr⟩ => ⟨hv, hr⟩, fun ⟨hv, hr⟩ => ⟨⟨⟩, hv, hr⟩⟩

/-- The check of a tuple lets it pass exactly if it has a fitting value for each column. -/
theorem tuple_eq_ok_iff {columns : List Column} {tuple : List Value} :
    Validation.tuple columns tuple = .ok () ↔
      List.Forall₂ (fun (c : Column) (v : Value) => v.fits c.type = true) columns tuple := by
  unfold Validation.tuple
  split
  next h => exact values_eq_ok_iff h
  next h =>
    refine ⟨fun he => ?_, fun hf => absurd hf.length_eq.symm h⟩
    cases he

/-- The columns that an insertion gives are those of the table with the names
that it means. -/
theorem insertColumns_eq_ok_iff {choice : Fields} {columns : List Column} :
    insertColumns table schema choice = .ok columns ↔
      match choice with
      | .all => columns = schema
      | .named list => list.Nodup ∧
        List.Forall₂ (fun name c => Table.column? schema name = some c) list columns := by
  cases choice with
  | all => simp [insertColumns, eq_comm]
  | named list =>
    simp only [insertColumns, bind_eq_ok_iff, mapM_eq_ok_iff, column_eq_ok_iff]
    exact ⟨fun ⟨_, hd, hm⟩ => ⟨distinct_eq_ok_iff.mp hd, hm⟩,
      fun ⟨hd, hm⟩ => ⟨⟨⟩, distinct_eq_ok_iff.mpr hd, hm⟩⟩

/-- The check of an assignment lets it pass exactly if the column is there and takes the value.
-/
theorem assignment_eq_ok_iff {a : Assignment} :
    assignment table schema a = .ok () ↔
      ∃ c, Table.column? schema a.field = some c ∧ a.value.fits c.type = true := by
  simp only [assignment, bind_eq_ok_iff, column_eq_ok_iff, value_eq_ok_iff]

end EmbeddedSql.Sql.Validation
