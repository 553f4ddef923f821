import EmbeddedSql.Proofs.Table.Consistency
import EmbeddedSql.Session.Effect

/-!
# Data that is alike

Numbers are told apart as numbers only, so the two zeros are alike although they
are two. Two documents are alike if they have the same tables with the same
columns, and rows with the same names and like values in the same order. Nothing
that a statement does tells like documents apart.
-/

namespace EmbeddedSql

/-! ## Numbers and values -/

namespace Binary64

/-- Numbers are equal as numbers if they have a place and share it. -/
theorem numEq_iff {x y : Binary64} :
    x.numEq y = true ↔ ∃ place, x.place? = some place ∧ y.place? = some place := by
  rw [numEq, compareBy]
  cases hx : x.place? <;> cases hy : y.place? <;> simp [eq_comm]

/-- Equal numbers have the same place. -/
theorem place?_of_numEq {x y : Binary64} (h : x.numEq y = true) : x.place? = y.place? := by
  obtain ⟨place, hx, hy⟩ := numEq_iff.mp h
  rw [hx, hy]

/-- Only finite numbers equal a finite number. -/
theorem isFinite_of_numEq {x y : Binary64} (h : x.numEq y = true) (hx : x.isFinite = true) :
    y.isFinite = true := by
  have hplace := place?_of_numEq h
  cases x with
  | infinity negative => cases hx
  | nan => cases hx
  | finite s rank =>
    cases y with
    | finite => rfl
    | nan => cases hplace
    | infinity t =>
      have hrank := rank.isLt
      simp only [place?, Option.some.injEq] at hplace
      split at hplace <;> split at hplace <;> omega

/-- What equals a number is in every relation of places that it is in. -/
theorem compareBy_of_numEq {x y : Binary64} (h : x.numEq y = true) (relation : Int → Int → Bool)
    (z : Binary64) : compareBy relation x z = compareBy relation y z ∧
      compareBy relation z x = compareBy relation z y := by
  simp only [compareBy, place?_of_numEq h, and_self]

/-- Equality of numbers is symmetric. -/
theorem numEq_symm {x y : Binary64} (h : x.numEq y = true) : y.numEq x = true := by
  obtain ⟨place, hx, hy⟩ := numEq_iff.mp h
  exact numEq_iff.mpr ⟨place, hy, hx⟩

/-- Equality of numbers is transitive. -/
theorem numEq_trans {x y z : Binary64} (h : x.numEq y = true) (k : y.numEq z = true) :
    x.numEq z = true := by
  obtain ⟨place, hx, hy⟩ := numEq_iff.mp h
  exact numEq_iff.mpr ⟨place, hx, (place?_of_numEq k).symm.trans hy⟩

end Binary64

/-- Values are alike if they are of one kind and equal in it, numbers as numbers. -/
inductive Value.Alike : Value → Value → Prop
  | number {x y : Binary64} (equal : x.numEq y = true) : Alike (.number x) (.number y)
  | text (s : String) : Alike (.text s) (.text s)
  | boolean (b : Bool) : Alike (.boolean b) (.boolean b)
  | null : Alike .null .null

namespace Value.Alike

variable {v w u : Value}

/-- A finite value is like itself. -/
theorem refl (h : v.isFinite = true) : v.Alike v := by
  cases v with
  | number n => exact .number (Binary64.numEq_self fun hn => by rw [hn] at h; cases h)
  | text s => exact .text s
  | boolean b => exact .boolean b
  | null => exact .null

/-- Values like the same one are alike. -/
theorem trans (h : v.Alike w) (k : w.Alike u) : v.Alike u := by
  cases h with
  | number equal =>
    cases k with
    | number more => exact .number (Binary64.numEq_trans equal more)
  | text s => exact k
  | boolean b => exact k
  | null => exact k

/-- Likeness of values is symmetric. -/
theorem symm (h : v.Alike w) : w.Alike v := by
  cases h with
  | number equal => exact .number (Binary64.numEq_symm equal)
  | text s => exact .text s
  | boolean b => exact .boolean b
  | null => exact .null

/-- A value like a finite one is finite. -/
theorem isFinite (h : v.Alike w) (hv : v.isFinite = true) : w.isFinite = true := by
  cases h with
  | number equal => exact Binary64.isFinite_of_numEq equal hv
  | text s => rfl
  | boolean b => rfl
  | null => rfl

/-- Like values have the same type. -/
theorem type?_eq (h : v.Alike w) : v.type? = w.type? := by
  cases h <;> rfl

/-- Only null is like null. -/
theorem eq_null (h : v.Alike w) (hv : v = .null) : w = .null := by
  cases h with
  | null => rfl
  | number => cases hv
  | text => cases hv
  | boolean => cases hv

/-- Like values are the same as the same values. -/
theorem same_eq (h : v.Alike w) (other : Value) : v.same other = w.same other := by
  cases h with
  | text s => rfl
  | boolean b => rfl
  | null => rfl
  | number equal =>
    cases other with
    | number z => exact (Binary64.compareBy_of_numEq equal _ z).1
    | text => rfl
    | boolean => rfl
    | null => rfl

end Value.Alike

namespace Sql.Condition

/-- Numbers that are equal are ordered alike. -/
theorem ordered_eq {x y : Binary64} (h : x.numEq y = true) (operator : Operator) (z : Binary64) :
    ordered operator x z = ordered operator y z := by
  have hcompare := Binary64.compareBy_of_numEq h
  cases operator
  case less => exact (hcompare _ z).1
  case lessOrEqual => exact (hcompare _ z).1
  case greater => exact (hcompare _ z).2
  case greaterOrEqual => exact (hcompare _ z).2
  all_goals rfl

end Sql.Condition

/-! ## Rows -/

namespace Row

/-- Pairs with the same name and like values. -/
def PairAlike (p q : String × Value) : Prop :=
  p.1 = q.1 ∧ p.2.Alike q.2

/-- Rows are alike if they have the same names in the same order, and like values. -/
def Alike (a b : Row) : Prop :=
  List.Forall₂ PairAlike a.columns b.columns

variable {a b c : Row}

/-- Like rows have the same names. -/
theorem Alike.names_eq (h : a.Alike b) : a.names = b.names := by
  obtain ⟨a⟩ := a
  obtain ⟨b⟩ := b
  simp only [Alike] at h
  simp only [names]
  induction h with
  | nil => rfl
  | cons hp _ ih => rw [List.map_cons, List.map_cons, hp.1, ih]

/-- Likeness of rows is transitive. -/
theorem Alike.trans (h : a.Alike b) (k : b.Alike c) : a.Alike c :=
  (Result.forall₂_comp h k).imp fun _ _ ⟨_, hp, hq⟩ => ⟨hp.1.trans hq.1, hp.2.trans hq.2⟩

/-- Likeness of rows is symmetric. -/
theorem Alike.symm (h : a.Alike b) : b.Alike a :=
  List.Forall₂.flip (h.imp fun _ _ hp => ⟨hp.1.symm, hp.2.symm⟩)

/-- What a column holds is alike in like rows. -/
theorem Alike.get? (h : a.Alike b) (name : String) :
    Option.Rel Value.Alike (a.get? name) (b.get? name) := by
  obtain ⟨a⟩ := a
  obtain ⟨b⟩ := b
  simp only [Alike] at h
  simp only [Row.get?]
  induction h with
  | nil => exact .none
  | @cons p q _ _ hp _ ih =>
    obtain ⟨column, v⟩ := p
    obtain ⟨column', w⟩ := q
    obtain rfl : column = column' := hp.1
    rw [lookup, lookup]
    split
    · exact .some hp.2
    · exact ih

/-- Like values put under a name in like rows leave like rows. -/
theorem forall₂_put {p q : List (String × Value)} (h : List.Forall₂ PairAlike p q) (name : String)
    {v w : Value} (hv : v.Alike w) :
    List.Forall₂ PairAlike (put name v p) (put name w q) := by
  induction h with
  | nil => exact .cons ⟨rfl, hv⟩ .nil
  | @cons p q _ _ hp hrest ih =>
    obtain ⟨column, old⟩ := p
    obtain ⟨column', old'⟩ := q
    obtain rfl : column = column' := hp.1
    rw [put, put]
    split
    · exact .cons ⟨rfl, hv⟩ hrest
    · exact .cons hp ih

/-- Like rows stay alike when like values are put into the same columns. -/
theorem Alike.setAll (h : a.Alike b) {p q : List (String × Value)}
    (hp : List.Forall₂ PairAlike p q) : (a.setAll p).Alike (b.setAll q) := by
  induction hp generalizing a b with
  | nil => exact h
  | @cons p q _ _ hpair _ ih =>
    obtain ⟨name, v⟩ := p
    obtain ⟨name', w⟩ := q
    obtain rfl : name = name' := hpair.1
    exact ih (forall₂_put h name hpair.2)

/-- Pairs of finite values are like themselves. -/
theorem forall₂_refl {p : List (String × Value)} (h : ∀ pair ∈ p, pair.2.isFinite = true) :
    List.Forall₂ PairAlike p p :=
  List.forall₂_same.mpr fun pair hp => ⟨rfl, .refl (h pair hp)⟩

end Row

/-! ## Choosing rows and columns -/

namespace Sql

variable {a b : Row}

/-- A comparison does not tell like rows apart. -/
theorem Condition.holds_eq (h : a.Alike b) (condition : Condition) :
    condition.holds a = condition.holds b := by
  have hstored : ((a.get? condition.field).getD .null).Alike
      ((b.get? condition.field).getD .null) := by
    have hrel := h.get? condition.field
    generalize a.get? condition.field = x at hrel
    generalize b.get? condition.field = y at hrel
    cases hrel with
    | none => exact .null
    | some hv => exact hv
  simp only [holds]
  generalize (a.get? condition.field).getD .null = v at hstored
  generalize (b.get? condition.field).getD .null = w at hstored
  split
  · exact hstored.same_eq _
  · rw [hstored.same_eq]
  · cases hstored with
    | number equal =>
      cases condition.value.number? with
      | none => rfl
      | some z => exact ordered_eq equal _ z
    | text s => rfl
    | boolean b => rfl
    | null => rfl

/-- Nor do conditions. -/
theorem Conditions.accept_eq (h : a.Alike b) (conditions : Conditions) :
    conditions.accept a = conditions.accept b := by
  have hholds : (fun condition : Condition => condition.holds a) = fun condition =>
      condition.holds b := funext (Condition.holds_eq h)
  simp only [accept, hholds]

/-- The chosen columns of like rows are alike. -/
theorem Fields.select_alike (h : a.Alike b) (fields : Fields) :
    (fields.select a).Alike (fields.select b) := by
  cases fields with
  | all => exact h
  | named list =>
    have hpairs : List.Forall₂ Row.PairAlike
        (list.filterMap fun name => (a.get? name).map (name, ·))
        (list.filterMap fun name => (b.get? name).map (name, ·)) := by
      induction list with
      | nil => exact .nil
      | cons name rest ih =>
        rw [List.filterMap_cons, List.filterMap_cons]
        have hrel := h.get? name
        generalize a.get? name = x at hrel
        generalize b.get? name = y at hrel
        cases hrel with
        | none => exact ih
        | some hv => exact .cons ⟨rfl, hv⟩ ih
    exact Row.Alike.setAll .nil hpairs

/-- The chosen columns of lists of like rows are alike. -/
theorem Fields.project_alike {rows other : List Row} (h : List.Forall₂ Row.Alike rows other)
    (fields : Fields) : List.Forall₂ Row.Alike (fields.project rows) (fields.project other) := by
  rw [project, project]
  split
  · exact .nil
  · exact List.forall₂_map_left_iff.mpr (List.forall₂_map_right_iff.mpr
      (h.imp fun _ _ hrow => select_alike hrow fields))

end Sql

/-! ## Tables -/

/-- Tables are alike if they have the same columns and like rows. -/
structure Table.Alike (a b : Table) : Prop where
  /-- The columns are the same. -/
  schema : a.schema = b.schema
  /-- The rows are alike, one by one. -/
  rows : List.Forall₂ Row.Alike a.rows b.rows

/-- What a statement does to rows is alike: the table it leaves, the rows it
gives back, and as many of them. -/
structure Mutation.Alike (a b : Mutation) : Prop where
  /-- The tables are alike. -/
  table : a.table.Alike b.table
  /-- The rows given back are alike. -/
  returned : List.Forall₂ Row.Alike a.returned b.returned
  /-- As many rows are added, changed or removed. -/
  affected : a.affected = b.affected

namespace Table

variable {a b c : Table}

/-- Likeness of tables is transitive. -/
theorem Alike.trans (h : a.Alike b) (k : b.Alike c) : a.Alike c :=
  ⟨h.schema.trans k.schema,
    (Result.forall₂_comp h.rows k.rows).imp fun _ _ ⟨_, hp, hq⟩ => hp.trans hq⟩

/-- The rows of like tables that are chosen are alike. -/
theorem filter_alike {rows other : List Row} (h : List.Forall₂ Row.Alike rows other)
    {p : Row → Bool} (hp : ∀ {a b : Row}, a.Alike b → p a = p b) :
    List.Forall₂ Row.Alike (rows.filter p) (other.filter p) := by
  induction h with
  | nil => exact .nil
  | cons hrow _ ih =>
    rw [List.filter_cons, List.filter_cons, hp hrow]
    split
    · exact .cons hrow ih
    · exact ih

/-- Selecting does not tell like tables apart. -/
theorem select_alike (h : a.Alike b) (s : Sql.Select) :
    List.Forall₂ Row.Alike (a.select s) (b.select s) :=
  List.forall₂_map_left_iff.mpr (List.forall₂_map_right_iff.mpr
    ((filter_alike h.rows fun hrow => Sql.Conditions.accept_eq hrow _).imp
      fun _ _ hrow => Sql.Fields.select_alike hrow _))

/-- An insertion adds the same rows to tables with the same columns. -/
theorem rowOfTuple_eq (h : a.schema = b.schema) (fields : Sql.Fields) :
    a.rowOfTuple fields = b.rowOfTuple fields := by
  funext tuple
  have hinsert : a.insertColumns fields = b.insertColumns fields := by
    cases fields with
    | all => rw [insertColumns, insertColumns, columnNames, columnNames, h]
    | named list => rfl
  rw [rowOfTuple, rowOfTuple, hinsert, columnNames, columnNames, h]

/-- A row made of a tuple of finite values is like itself. -/
theorem rowOfTuple_alike (table : Table) (fields : Sql.Fields) {tuple : List Value}
    (hf : ∀ v ∈ tuple, v.isFinite = true) :
    (table.rowOfTuple fields tuple).Alike (table.rowOfTuple fields tuple) := by
  refine Row.Alike.setAll (Row.Alike.setAll .nil (Row.forall₂_refl fun pair hp => ?_))
    (Row.forall₂_refl fun pair hp => hf _ (List.of_mem_zip hp).2)
  obtain ⟨name, _, rfl⟩ := List.mem_map.mp hp
  rfl

/-- Inserting finite values does not tell like tables apart. -/
theorem insert_alike (h : a.Alike b) {s : Sql.Insert}
    (hf : ∀ tuple ∈ s.tuples, ∀ v ∈ tuple, v.isFinite = true) :
    (a.insert s).Alike (b.insert s) := by
  have hrows : List.Forall₂ Row.Alike (s.tuples.map (a.rowOfTuple s.fields))
      (s.tuples.map (b.rowOfTuple s.fields)) := by
    rw [rowOfTuple_eq h.schema]
    exact List.forall₂_map_left_iff.mpr (List.forall₂_map_right_iff.mpr
      (List.forall₂_same.mpr fun tuple hm => rowOfTuple_alike b s.fields (hf tuple hm)))
  exact ⟨⟨h.schema, List.rel_append h.rows hrows⟩, Sql.Fields.project_alike hrows _,
    hrows.length_eq⟩

/-- Like rows are alike after the same assignments of finite values. -/
theorem assign_alike {a b : Row} (h : a.Alike b) {assignments : List Sql.Assignment}
    (hf : ∀ x ∈ assignments, x.value.isFinite = true) :
    (assign assignments a).Alike (assign assignments b) := by
  refine Row.Alike.setAll h (Row.forall₂_refl fun pair hp => ?_)
  obtain ⟨x, hx, rfl⟩ := List.mem_map.mp hp
  exact hf x hx

/-- Updating to finite values does not tell like tables apart. -/
theorem update_alike (h : a.Alike b) {s : Sql.Update}
    (hf : ∀ x ∈ s.assignments, x.value.isFinite = true) : (a.update s).Alike (b.update s) := by
  have hchanged : List.Forall₂ Row.Alike
      ((a.rows.filter s.conditions.accept).map (assign s.assignments))
      ((b.rows.filter s.conditions.accept).map (assign s.assignments)) :=
    List.forall₂_map_left_iff.mpr (List.forall₂_map_right_iff.mpr
      ((filter_alike h.rows fun hrow => Sql.Conditions.accept_eq hrow _).imp
        fun _ _ hrow => assign_alike hrow hf))
  refine ⟨⟨h.schema, ?_⟩, Sql.Fields.project_alike hchanged _, hchanged.length_eq⟩
  refine List.forall₂_map_left_iff.mpr (List.forall₂_map_right_iff.mpr
    (h.rows.imp fun x y hrow => ?_))
  simp only [Sql.Conditions.accept_eq hrow]
  split
  · exact assign_alike hrow hf
  · exact hrow

/-- Deleting does not tell like tables apart. -/
theorem delete_alike (h : a.Alike b) (s : Sql.Delete) : (a.delete s).Alike (b.delete s) := by
  have hremoved := filter_alike h.rows fun hrow => Sql.Conditions.accept_eq hrow s.conditions
  have hkept : List.Forall₂ Row.Alike (a.rows.filter fun row => !s.conditions.accept row)
      (b.rows.filter fun row => !s.conditions.accept row) :=
    filter_alike h.rows fun hrow => by rw [Sql.Conditions.accept_eq hrow]
  exact ⟨⟨h.schema, hkept⟩, Sql.Fields.project_alike hremoved _, hremoved.length_eq⟩

end Table

/-! ## Documents -/

namespace Document

/-- Tables under the same name that are alike. -/
def PairAlike (p q : String × Table) : Prop :=
  p.1 = q.1 ∧ p.2.Alike q.2

/-- Documents are alike if they have the same names and like tables under them. -/
def Alike (a b : Document) : Prop :=
  List.Forall₂ PairAlike a.tables b.tables

variable {a b c : Document}

/-- Likeness of documents is transitive. -/
theorem Alike.trans (h : a.Alike b) (k : b.Alike c) : a.Alike c :=
  (Result.forall₂_comp h k).imp fun _ _ ⟨_, hp, hq⟩ => ⟨hp.1.trans hq.1, hp.2.trans hq.2⟩

/-- Like documents have the same names. -/
theorem Alike.names_eq (h : a.Alike b) : a.names = b.names := by
  rw [names, names]
  exact List.forall₂_eq_eq_eq ▸ List.forall₂_map_left_iff.mpr (List.forall₂_map_right_iff.mpr
    (h.imp fun _ _ hp => hp.1))

/-- Under a name like documents have like tables, or none. -/
theorem Alike.find? (h : a.Alike b) (name : String) :
    Option.Rel Table.Alike (a.find? name) (b.find? name) := by
  rw [Document.find?, Document.find?]
  unfold Alike at h
  generalize a.tables = p at h
  generalize b.tables = q at h
  induction h with
  | nil => exact .none
  | @cons p q _ _ hp _ ih =>
    obtain ⟨key, table⟩ := p
    obtain ⟨key', table'⟩ := q
    obtain rfl : key = key' := hp.1
    rw [lookup, lookup]
    split
    · exact .some hp.2
    · exact ih

/-- Like documents contain the same tables. -/
theorem Alike.contains_eq (h : a.Alike b) (name : String) : a.contains name = b.contains name := by
  rw [contains, contains]
  have hrel := h.find? name
  generalize a.find? name = x at hrel
  generalize b.find? name = y at hrel
  cases hrel <;> rfl

/-- Like tables put under a name among like ones leave like ones. -/
theorem forall₂_put {p q : List (String × Table)} (h : List.Forall₂ PairAlike p q) (name : String)
    {s t : Table} (ht : s.Alike t) : List.Forall₂ PairAlike (put name s p) (put name t q) := by
  induction h with
  | nil => exact .cons ⟨rfl, ht⟩ .nil
  | @cons p q _ _ hp hrest ih =>
    obtain ⟨key, table⟩ := p
    obtain ⟨key', table'⟩ := q
    obtain rfl : key = key' := hp.1
    rw [put, put]
    split
    · exact .cons ⟨rfl, ht⟩ (.cons hp hrest)
    · split
      · exact .cons ⟨rfl, ht⟩ hrest
      · exact .cons hp ih

/-- Like tables inserted into like documents leave like documents. -/
theorem Alike.insert (h : a.Alike b) (name : String) {s t : Table} (ht : s.Alike t) :
    (a.insert name s).Alike (b.insert name t) :=
  forall₂_put h name ht

/-- Like documents without a table are alike. -/
theorem Alike.erase (h : a.Alike b) (name : String) : (a.erase name).Alike (b.erase name) := by
  simp only [Alike, Document.erase] at h ⊢
  generalize a.tables = p at h
  generalize b.tables = q at h
  induction h with
  | nil => exact .nil
  | cons hp _ ih =>
    rw [List.filter_cons, List.filter_cons, hp.1]
    split
    · exact .cons hp ih
    · exact ih

end Document

/-! ## Consistency -/

/-- What is like a row in shape is in shape. -/
theorem Row.InShape.of_alike {schema : List Column} {a b : Row} (h : a.InShape schema)
    (k : a.Alike b) : b.InShape schema :=
  (Result.forall₂_comp h k).imp fun _ _ ⟨_, hp, hq⟩ =>
    ⟨hq.1.symm.trans hp.name, hp.typed.imp hq.2.eq_null hq.2.type?_eq.symm.trans,
      hq.2.isFinite hp.finite⟩

/-- What is like a consistent table is consistent. -/
theorem Table.Consistent.of_alike {a b : Table} (h : a.Consistent) (k : a.Alike b) :
    b.Consistent := by
  refine ⟨?_, fun row hr => ?_⟩
  · rw [columnNames, ← k.schema]
    exact h.distinct
  · obtain ⟨other, hm, hrow⟩ := Result.exists_of_mem_forall₂ k.rows hr
    rw [← k.schema]
    exact (h.rows other hm).of_alike hrow

/-- What is like a consistent document is consistent. -/
theorem Document.Consistent.of_alike {a b : Document} (h : a.Consistent) (k : a.Alike b) :
    b.Consistent := by
  intro pair hp
  obtain ⟨other, hm, hpair⟩ := Result.exists_of_mem_forall₂ k hp
  exact (h other hm).of_alike hpair.2

/-! ## Effects -/

/-- Effects are alike if the rows given back are, and the documents to be stored. -/
structure Effect.Alike (a b : Effect) : Prop where
  /-- The rows given back are alike. -/
  rows : List.Forall₂ Row.Alike a.rows b.rows
  /-- Both want like documents stored, or none. -/
  store : Option.Rel Document.Alike a.store b.store

/-- Results are alike if they are errors in one relation or values in another. -/
inductive Result.Alike {ε δ α β : Type} (E : ε → δ → Prop) (R : α → β → Prop) :
    Except ε α → Except δ β → Prop
  | ok {a : α} {b : β} (alike : R a b) : Alike E R (.ok a) (.ok b)
  | error {e : ε} {d : δ} (alike : E e d) : Alike E R (.error e) (.error d)

namespace Sql.Statement

variable {a b : Document}

/-- Looking for a table does not tell like documents apart. -/
theorem tableIn_alike (h : a.Alike b) (name : String) :
    Result.Alike Eq Table.Alike (tableIn a name) (tableIn b name) := by
  rw [tableIn, tableIn]
  have hrel := h.find? name
  generalize a.find? name = x at hrel
  generalize b.find? name = y at hrel
  cases hrel with
  | none => exact .error rfl
  | some ht => exact .ok ht

/-- Like changes to a table of like documents have like effects. -/
theorem effectOf_alike (h : a.Alike b) (name : String) {m n : Mutation} (hm : m.Alike n) :
    (effectOf a name m).Alike (effectOf b name n) := by
  refine ⟨hm.returned, ?_⟩
  simp only [effectOf, hm.affected]
  split
  · exact .some (h.insert name hm.table)
  · exact .none

/-- A statement about the rows of a table is alike for like documents if what it
comes to is alike for like tables. -/
theorem bind_tableIn_alike (h : a.Alike b) (statement : Statement) (name : String)
    {f g : Table → Effect} (hfg : ∀ {s t : Table}, s.Alike t → (f s).Alike (g t)) :
    Result.Alike Eq Effect.Alike
      (do
        let table ← tableIn a name
        (statement.validate name table.schema).mapError Error.validation
        .ok (f table))
      (do
        let table ← tableIn b name
        (statement.validate name table.schema).mapError Error.validation
        .ok (g table)) := by
  have hrel := tableIn_alike h name
  generalize tableIn a name = x at hrel
  generalize tableIn b name = y at hrel
  cases hrel with
  | error he => exact .error he
  | @ok s t ht =>
    rw [Result.ok_bind, Result.ok_bind, ht.schema]
    cases (statement.validate name t.schema).mapError Error.validation with
    | error e => exact .error rfl
    | ok _ => exact .ok (hfg ht)

/-- The effects of a statement on like documents are alike. -/
theorem effect_alike (h : a.Alike b) {statement : Statement} (hf : statement.Finite) :
    Result.Alike Eq Effect.Alike (statement.effect a) (statement.effect b) := by
  cases statement with
  | select s =>
    exact bind_tableIn_alike h (.select s) s.table
      (f := fun table => ⟨table.select s, none⟩) (g := fun table => ⟨table.select s, none⟩)
      fun ht => ⟨Table.select_alike ht s, .none⟩
  | insert s =>
    have hvalues : ∀ tuple ∈ s.tuples, ∀ v ∈ tuple, v.isFinite = true :=
      fun tuple htuple v hm => hf v (List.mem_flatten_of_mem htuple hm)
    exact bind_tableIn_alike h (.insert s) s.table
      fun ht => effectOf_alike h s.table (Table.insert_alike ht hvalues)
  | update s =>
    have hvalues : ∀ x ∈ s.assignments, x.value.isFinite = true :=
      fun x hx => hf x.value (List.mem_map_of_mem hx)
    exact bind_tableIn_alike h (.update s) s.table
      fun ht => effectOf_alike h s.table (Table.update_alike ht hvalues)
  | delete s =>
    exact bind_tableIn_alike h (.delete s) s.table
      fun ht => effectOf_alike h s.table (Table.delete_alike ht s)
  | create s =>
    simp only [effect, createIn, h.contains_eq]
    split
    · split
      · exact .ok ⟨.nil, .none⟩
      · exact .error rfl
    · exact .ok ⟨.nil, .some (h.insert s.table ⟨rfl, .nil⟩)⟩
  | drop s =>
    simp only [effect, dropIn, h.contains_eq]
    split
    · exact .ok ⟨.nil, .some (h.erase s.table)⟩
    · exact .error rfl

end Sql.Statement

end EmbeddedSql
