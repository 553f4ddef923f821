import EmbeddedSql.Proofs.Table.Rows

/-!
# The laws of updates

An update leaves every row in its place with its columns in their order. The rows that it
chooses get the new values and keep all others, the rest stay as they are. Making it a second
time changes nothing, even when it sets the columns that its condition tests, and the order of
its assignments does not matter.
-/

namespace EmbeddedSql

/-- What assignments make of a row. -/
structure Row.Assigned (assignments : List Sql.Assignment) (before after : Row) : Prop where
  /-- The row has the same columns in the same order. -/
  names : after.names = before.names
  /-- Every assigned column has its new value. -/
  assigned : ∀ a ∈ assignments, after.get? a.field = some a.value
  /-- Every other column keeps the value that it had. -/
  kept : ∀ name, (∀ a ∈ assignments, a.field ≠ name) → after.get? name = before.get? name

namespace Row

/-! ## Overwriting -/

/-- The order of distinct names does not matter. -/
theorem lookup_perm {pairs others : List (String × Value)} (hp : pairs.Perm others)
    (h : (pairs.map Prod.fst).Nodup) (name : String) : lookup name pairs = lookup name others := by
  have hothers : (others.map Prod.fst).Nodup := (hp.map Prod.fst).nodup_iff.mp h
  refine Option.ext fun value => ?_
  rw [lookup_eq_some_iff h, lookup_eq_some_iff hothers, hp.mem_iff]

/-- The order of new values for distinct columns does not matter. -/
theorem overwrite_perm {pairs others : List (String × Value)} (hp : pairs.Perm others)
    (h : (pairs.map Prod.fst).Nodup) (row : Row) : row.overwrite pairs = row.overwrite others := by
  simp only [overwrite, lookup_perm hp h]

/-- Overwriting columns a second time with the same values changes nothing. -/
theorem overwrite_overwrite (row : Row) (pairs : List (String × Value)) :
    (row.overwrite pairs).overwrite pairs = row.overwrite pairs := by
  rw [overwrite, overwrite, List.map_map]
  refine congrArg Row.mk (List.map_congr_left fun pair _ => ?_)
  rw [Function.comp_apply]
  cases lookup pair.1 pairs with
  | none => rfl
  | some value => rfl

/-- A column has its new value if there is one, and else the value that it had. -/
theorem get?_overwrite (row : Row) (pairs : List (String × Value)) (name : String) :
    (row.overwrite pairs).get? name =
      (row.get? name).map fun old => (lookup name pairs).getD old := by
  obtain ⟨columns⟩ := row
  simp only [get?, overwrite]
  induction columns with
  | nil => rfl
  | cons pair rest ih =>
    obtain ⟨column, old⟩ := pair
    rw [List.map_cons, lookup, lookup]
    split
    next he => rw [he, Option.map_some]
    next => exact ih

end Row

namespace Table

variable {table : Table} {name : String} {s : Sql.Update}

/-- The assignments of a valid update do to a row what they say. -/
theorem assigned_assign (h : table.Regular)
    (hv : Sql.Validation.update name table.schema s = .ok ()) {row : Row}
    (hr : row.names = table.columnNames) :
    row.Assigned s.assignments (assign s.assignments row) := by
  obtain ⟨hdistinct, hfields⟩ := assigned_of_update hv
  rw [assign_eq_overwrite h hv hr]
  refine ⟨Row.names_overwrite _ _, fun a ha => ?_, fun column hcolumn => ?_⟩
  · obtain ⟨old, hold⟩ := Row.exists_get?_of_mem (hr ▸ hfields a ha : a.field ∈ row.names)
    have hmem : (a.field, a.value) ∈ s.assignments.map fun a => (a.field, a.value) :=
      List.mem_map.mpr ⟨a, ha, rfl⟩
    rw [Row.get?_overwrite, hold, (Row.lookup_eq_some_iff hdistinct).mpr hmem]
    rfl
  · have habsent : column ∉ (s.assignments.map fun a => (a.field, a.value)).map Prod.fst := by
      rw [List.map_map]
      intro hm
      obtain ⟨a, ha, he⟩ := List.mem_map.mp hm
      exact hcolumn a ha he
    rw [Row.get?_overwrite, Row.lookup_of_not_mem habsent]
    exact congrFun Option.map_id _

/-- Making the assignments of a valid update twice is making them once. -/
theorem assign_assign (h : table.Regular)
    (hv : Sql.Validation.update name table.schema s = .ok ()) {row : Row}
    (hr : row.names = table.columnNames) :
    assign s.assignments (assign s.assignments row) = assign s.assignments row := by
  have hnames : (assign s.assignments row).names = table.columnNames :=
    (assigned_assign h hv hr).names.trans hr
  rw [assign_eq_overwrite h hv hnames, assign_eq_overwrite h hv hr, Row.overwrite_overwrite]

/-- A row that was changed need not be chosen again, and changes no more if it is; a row that
was not chosen is not chosen afterwards either. -/
theorem update_update (h : table.Regular)
    (hv : Sql.Validation.update name table.schema s = .ok ()) :
    ((table.update s).table.update s).table = (table.update s).table := by
  simp only [update, List.map_map]
  refine congrArg (Table.mk table.schema) (List.map_congr_left fun row hr => ?_)
  rw [Function.comp_apply]
  by_cases hchosen : s.conditions.accept row = true
  · rw [if_pos hchosen, assign_assign h hv (h.rows row hr), ite_self]
  · rw [if_neg hchosen, if_neg hchosen]

/-! ## The order of the assignments -/

/-- The order of the assignments is nothing to validation. -/
theorem update_perm_valid {assignments : List Sql.Assignment}
    (hp : assignments.Perm s.assignments)
    (hv : Sql.Validation.update name table.schema s = .ok ()) :
    Sql.Validation.update name table.schema { s with assignments } = .ok () := by
  obtain ⟨_, hdistinct, hrest⟩ := Result.bind_eq_ok_iff.mp hv
  obtain ⟨_, hassignments, hrest⟩ := Result.bind_eq_ok_iff.mp hrest
  have hnames := (hp.map (·.field)).nodup_iff.mpr (Sql.Validation.distinct_eq_ok_iff.mp hdistinct)
  have hvalues := Result.forM_eq_ok_iff.mp hassignments
  exact Result.bind_eq_ok_iff.mpr ⟨(), Sql.Validation.distinct_eq_ok_iff.mpr hnames,
    Result.bind_eq_ok_iff.mpr
      ⟨(), Result.forM_eq_ok_iff.mpr fun a ha => hvalues a (hp.mem_iff.mp ha), hrest⟩⟩

/-- Nor to what they make of a row. -/
theorem assign_perm (h : table.Regular) {assignments : List Sql.Assignment}
    (hp : assignments.Perm s.assignments)
    (hv : Sql.Validation.update name table.schema s = .ok ()) {row : Row}
    (hr : row.names = table.columnNames) : assign assignments row = assign s.assignments row := by
  have hother := update_perm_valid hp hv
  have hdistinct := (assigned_of_update hother).1
  rw [assign_eq_overwrite h hv hr, ← Row.overwrite_perm (hp.map _) hdistinct]
  exact assign_eq_overwrite h hother hr

/-- The order of the assignments of an update does not matter. -/
theorem update_perm (h : table.Regular) {assignments : List Sql.Assignment}
    (hp : assignments.Perm s.assignments)
    (hv : Sql.Validation.update name table.schema s = .ok ()) :
    table.update { s with assignments } = table.update s := by
  have hassign (row : Row) (hr : row ∈ table.rows) :
      assign assignments row = assign s.assignments row := assign_perm h hp hv (h.rows row hr)
  have hchanged : (table.rows.filter s.conditions.accept).map (assign assignments) =
      (table.rows.filter s.conditions.accept).map (assign s.assignments) :=
    List.map_congr_left fun row hr => hassign row (List.mem_of_mem_filter hr)
  have hrows : (table.rows.map fun row =>
      if s.conditions.accept row then assign assignments row else row) =
      table.rows.map fun row =>
        if s.conditions.accept row then assign s.assignments row else row :=
    List.map_congr_left fun row hr => by rw [hassign row hr]
  rw [update, update, hchanged, hrows]

/-- A valid update of a table whose rows have its columns keeps the rows in their places,
gives those that it chooses the new values and leaves the others alone. It counts the rows
that it chooses. A second time it changes nothing, and the order of its assignments has no
part in what it does. -/
theorem update_laws (h : table.Regular)
    (hv : (Sql.Statement.update s).validate name table.schema = .ok ()) :
    (table.update s).table.schema = table.schema ∧
      List.Forall₂ (fun before after => if s.conditions.accept before
        then Row.Assigned s.assignments before after else after = before)
        table.rows (table.update s).table.rows ∧
      (table.update s).affected = table.rows.countP s.conditions.accept ∧
      ((table.update s).table.update s).table = (table.update s).table ∧
      ∀ assignments : List Sql.Assignment, assignments.Perm s.assignments →
        (Sql.Statement.update { s with assignments }).validate name table.schema = .ok () ∧
          table.update { s with assignments } = table.update s := by
  refine ⟨rfl, ?_, ?_, update_update h hv,
    fun assignments hp => ⟨update_perm_valid hp hv, update_perm h hp hv⟩⟩
  · rw [update, List.forall₂_map_right_iff, List.forall₂_same]
    intro row hr
    split
    · exact assigned_assign h hv (h.rows row hr)
    · rfl
  · rw [update, List.length_map, List.countP_eq_length_filter]

/-- An update of the column that it tests: the second row is no longer chosen, and the
assignments may be swapped. -/
theorem update_laws_of_text :
    let table : Table := ⟨[⟨"id", .text⟩, ⟨"on", .boolean⟩],
      [⟨[("id", .text "a"), ("on", .boolean true)]⟩, ⟨[("id", .text "b"), ("on", .null)]⟩]⟩
    let after : Table := ⟨[⟨"id", .text⟩, ⟨"on", .boolean⟩],
      [⟨[("id", .text "a"), ("on", .boolean true)]⟩,
        ⟨[("id", .text "c"), ("on", .boolean true)]⟩]⟩
    let s : Sql.Update := ⟨"t", [⟨"on", .boolean true⟩, ⟨"id", .text "c"⟩],
      [[⟨"on", .equal, .null⟩]], .named ["id"]⟩
    (table.Regular ∧ (Sql.Statement.update s).validate "t" table.schema = .ok ()) ∧
    (table.update s).table = after ∧ (table.update s).affected = 1 ∧
      (after.update s).table = after ∧
      table.update { s with assignments := [⟨"id", .text "c"⟩, ⟨"on", .boolean true⟩] } =
        table.update s := by
  intro table after s
  have hregular : table.Regular := ⟨by decide, by decide⟩
  obtain ⟨-, -, hcount, hagain, hperm⟩ := @update_laws table "t" s hregular rfl
  exact ⟨⟨hregular, rfl⟩, rfl, hcount, hagain, (hperm _ (.swap _ _ _)).2⟩

end Table

end EmbeddedSql
