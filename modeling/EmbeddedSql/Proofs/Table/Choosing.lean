import EmbeddedSql.Proofs.Number.Order
import EmbeddedSql.Proofs.Sql.Formulas
import EmbeddedSql.Table.Basic

/-!
# What a condition chooses

A row is chosen by a condition if and only if the condition is true of it as a formula in
which AND binds tighter than OR. A comparison is judged by the value that the row stores,
null for a missing column: equality is that of kind and value, the four orders are those of
the amounts of numbers and never hold of anything else. Joining two conditions by OR chooses
the rows that either of them chooses, and deleting these is deleting by one condition and
then by the other.
-/

namespace EmbeddedSql

namespace Value

/-- Two values are of one kind and equal in it; numbers are if they amount to the same. -/
inductive Equal : Value → Value → Prop where
  /-- Numbers of one amount. -/
  | number {x y : Binary64} {amount : WithBot (WithTop ℤ)} (hx : x.amount? = some amount)
    (hy : y.amount? = some amount) : Equal (.number x) (.number y)
  /-- The same text. -/
  | text (s : String) : Equal (.text s) (.text s)
  /-- The same truth value. -/
  | boolean (b : Bool) : Equal (.boolean b) (.boolean b)
  /-- No value on either side. -/
  | null : Equal .null .null

/-- Two values are numbers whose amounts are in a relation. -/
def Ordered (R : WithBot (WithTop ℤ) → WithBot (WithTop ℤ) → Prop) (v w : Value) : Prop :=
  ∃ x y a b, v = .number x ∧ w = .number y ∧ x.amount? = some a ∧ y.amount? = some b ∧ R a b

/-- Two values are the same exactly if they are equal, numbers by their amounts. -/
theorem same_iff_equal {v w : Value} : v.same w = true ↔ v.Equal w := by
  constructor
  · intro h
    cases v with
    | number x =>
      cases w with
      | number y =>
        obtain ⟨a, b, ha, hb, rfl⟩ := Binary64.numEq_iff_amount.mp h
        exact .number ha hb
      | _ => cases h
    | text s =>
      cases w with
      | text t =>
        obtain rfl : s = t := by simpa [same] using h
        exact .text s
      | _ => cases h
    | boolean b =>
      cases w with
      | boolean c =>
        obtain rfl : b = c := by simpa [same] using h
        exact .boolean b
      | _ => cases h
    | null =>
      cases w with
      | null => exact .null
      | _ => cases h
  · intro h
    cases h with
    | number hx hy => exact Binary64.numEq_iff_amount.mpr ⟨_, _, hx, hy, rfl⟩
    | text s => simp [same]
    | boolean b => simp [same]
    | null => rfl

end Value

namespace Sql.Condition

/-- What a comparison says of the value that a row stores in its column; a missing column
stores null. -/
def Satisfied (c : Condition) (row : Row) : Prop :=
  let stored := (row.get? c.field).getD .null
  match c.operator with
  | .equal => stored.Equal c.value
  | .notEqual => ¬ stored.Equal c.value
  | .less => stored.Ordered (· < ·) c.value
  | .lessOrEqual => stored.Ordered (· ≤ ·) c.value
  | .greater => stored.Ordered (· > ·) c.value
  | .greaterOrEqual => stored.Ordered (· ≥ ·) c.value
  | .plus | .minus | .star | .slash => False

/-- An order of two values holds if both are numbers and it holds of these. -/
theorem ordered_iff {operator : Operator} {v w : Value}
    {R : WithBot (WithTop ℤ) → WithBot (WithTop ℤ) → Prop}
    (h : ∀ x y, ordered operator x y = true ↔
      ∃ a b, x.amount? = some a ∧ y.amount? = some b ∧ R a b) :
    (match v.number?, w.number? with
      | some x, some y => ordered operator x y
      | _, _ => false) = true ↔ v.Ordered R w := by
  cases v with
  | number x =>
    cases w with
    | number y => simp [Value.number?, Value.Ordered, h]
    | _ => simp [Value.number?, Value.Ordered]
  | _ => simp [Value.number?, Value.Ordered]

/-- A comparison holds of a row if what it says is so. -/
theorem holds_iff (c : Condition) (row : Row) : c.holds row = true ↔ c.Satisfied row := by
  obtain ⟨field, operator, value⟩ := c
  cases operator with
  | equal => exact Value.same_iff_equal
  | notEqual =>
    simp only [holds, Satisfied, Bool.not_eq_true', ← Bool.not_eq_true, Value.same_iff_equal]
  | less => exact ordered_iff fun x y => Binary64.numLt_iff_amount
  | lessOrEqual => exact ordered_iff fun x y => Binary64.numLe_iff_amount
  | greater =>
    refine ordered_iff fun x y => Binary64.numLt_iff_amount.trans ?_
    exact ⟨fun ⟨a, b, ha, hb, hab⟩ => ⟨b, a, hb, ha, hab⟩,
      fun ⟨a, b, ha, hb, hab⟩ => ⟨b, a, hb, ha, hab⟩⟩
  | greaterOrEqual =>
    refine ordered_iff fun x y => Binary64.numLe_iff_amount.trans ?_
    exact ⟨fun ⟨a, b, ha, hb, hab⟩ => ⟨b, a, hb, ha, hab⟩,
      fun ⟨a, b, ha, hb, hab⟩ => ⟨b, a, hb, ha, hab⟩⟩
  | _ =>
    simp only [holds, Satisfied, iff_false]
    split <;> simp [ordered]

instance (c : Condition) (row : Row) : Decidable (c.Satisfied row) :=
  decidable_of_iff _ (c.holds_iff row)

end Sql.Condition

namespace Sql.Formula

/-- Whether a formula is true of a row. -/
def Holds (row : Row) : Formula → Prop
  | .comparison c => c.Satisfied row
  | .and f g => f.Holds row ∧ g.Holds row
  | .or f g => f.Holds row ∨ g.Holds row

/-- The truth of a formula can be computed. -/
def decidableHolds (row : Row) : (f : Formula) → Decidable (f.Holds row)
  | .comparison c => inferInstanceAs (Decidable (c.Satisfied row))
  | .and f g => @instDecidableAnd _ _ (f.decidableHolds row) (g.decidableHolds row)
  | .or f g => @instDecidableOr _ _ (f.decidableHolds row) (g.decidableHolds row)

instance (f : Formula) (row : Row) : Decidable (f.Holds row) :=
  f.decidableHolds row

/-- A formula of comparisons joined by AND is true exactly if all of them hold. -/
theorem all_comparisons {f : Formula} (h : f.Conjunctive) (row : Row) :
    f.comparisons.all (·.holds row) = true ↔ f.Holds row := by
  induction f with
  | comparison c => rw [comparisons, List.all_cons, List.all_nil, Bool.and_true, c.holds_iff, Holds]
  | and f g hf hg => rw [comparisons, List.all_append, Bool.and_eq_true, hf h.1, hg h.2, Holds]
  | or f g => cases h

/-- A formula without OR below an AND is true exactly if all comparisons of one of its groups
hold. -/
theorem any_groups {f : Formula} (h : f.Plain) (row : Row) :
    (f.groups.any fun group => group.all (·.holds row)) = true ↔ f.Holds row := by
  induction f with
  | comparison c =>
    rw [groups, List.any_cons, List.any_nil, Bool.or_false]
    exact @all_comparisons (.comparison c) h row
  | and f g =>
    rw [groups, List.any_cons, List.any_nil, Bool.or_false]
    exact @all_comparisons (.and f g) h row
  | or f g hf hg => rw [groups, List.any_append, Bool.or_eq_true, hf h.1, hg h.2, Holds]

/-- The groups of a formula accept a row if all comparisons of one of them hold. -/
theorem accept_groups_eq (f : Formula) (row : Row) :
    Conditions.accept f.groups row = f.groups.any fun group => group.all (·.holds row) := by
  rw [Conditions.accept, List.isEmpty_eq_false_iff.mpr f.groups_ne_nil, Bool.false_or]

/-- The groups of a formula choose the rows of which it is true. -/
theorem accept_groups_iff {f : Formula} (h : f.Plain) (row : Row) :
    Conditions.accept f.groups row = true ↔ f.Holds row := by
  rw [accept_groups_eq, any_groups h]

/-- The groups of two formulas joined by OR choose the rows that one of them chooses. -/
theorem accept_or (p q : Formula) (row : Row) : Conditions.accept (p.or q).groups row =
    (Conditions.accept p.groups row || Conditions.accept q.groups row) := by
  rw [accept_groups_eq, accept_groups_eq, accept_groups_eq, groups, List.any_append]

/-! ## Statements with a condition -/

/-- The tokens of a selection of the rows of which a formula is true. -/
def selection (f : Formula) (table : String) (fields : Fields) : List Token :=
  .keyword .select :: fields.tokens ++
    .keyword .from :: .identifier table :: .keyword .where :: f.tokens

/-- The tokens of a deletion of these rows. -/
def deletion (f : Formula) (table : String) (returning : Fields) : List Token :=
  .keyword .delete :: .keyword .from :: .identifier table :: .keyword .where :: f.tokens ++
    returningTokens returning

/-- The clause with a formula is that with its groups. -/
theorem Plain.whereTokens_groups {f : Formula} (h : f.Plain) :
    whereTokens f.groups = .keyword .where :: f.tokens := by
  obtain ⟨group, others, hg⟩ := List.exists_cons_of_ne_nil f.groups_ne_nil
  rw [h.tokens_eq, hg]
  rfl

/-- A statement that can be written is read back as a whole. -/
theorem ofTokens_tokens {s : Statement} (h : s.WellFormed) :
    Statement.ofTokens s.tokens = .ok s := by
  rw [Statement.ofTokens, Parser.whole, Parser.statement_tokens h]
  rfl

/-- The tokens of a selection are read as the selection with the groups of the formula. -/
theorem ofTokens_selection {f : Formula} (h : f.Plain) (table : String) {fields : Fields}
    (hf : fields.Chosen) :
    Statement.ofTokens (f.selection table fields) = .ok (.select ⟨table, fields, f.groups⟩) := by
  have hread := @ofTokens_tokens (.select ⟨table, fields, f.groups⟩) ⟨hf, h.wellFormed⟩
  rwa [Statement.tokens, h.whereTokens_groups] at hread

/-- The tokens of a deletion are read as the deletion with the groups of the formula. -/
theorem ofTokens_deletion {f : Formula} (h : f.Plain) (table : String) (returning : Fields) :
    Statement.ofTokens (f.deletion table returning) =
      .ok (.delete ⟨table, f.groups, returning⟩) := by
  have hread := @ofTokens_tokens (.delete ⟨table, f.groups, returning⟩) h.wellFormed
  rwa [Statement.tokens, h.whereTokens_groups] at hread

end Sql.Formula

namespace Table

open Sql

/-- The rows that a selection by two formulas joined by OR gives. -/
theorem select_or {p q : Formula} (hp : p.Plain) (hq : q.Plain) (table : Table) (name : String)
    (fields : Fields) : table.select ⟨name, fields, (p.or q).groups⟩ =
      (table.rows.filter fun row => p.Holds row ∨ q.Holds row).map fields.select := by
  rw [select]
  refine congrArg (List.map fields.select) (List.filter_congr fun row _ => ?_)
  rw [Bool.eq_iff_iff, decide_eq_true_iff]
  exact @Formula.accept_groups_iff (p.or q) ⟨hp, hq⟩ row

/-- The rows that either of two tests finds are those that the first finds, and those among
the others that the second finds. -/
theorem length_filter_or (p q : Row → Bool) (rows : List Row) :
    (rows.filter fun row => p row || q row).length =
      (rows.filter p).length + ((rows.filter fun row => !p row).filter q).length := by
  induction rows with
  | nil => rfl
  | cons row rest ih =>
    cases hp : p row with
    | true => simp [hp, ih, Nat.add_right_comm]
    | false =>
      cases hq : q row with
      | true => simp [hp, hq, ih, Nat.add_assoc]
      | false => simp [hp, hq, ih]

/-- Deleting by two formulas joined by OR is deleting by one and then by the other. -/
theorem delete_or (p q : Formula) (table : Table) (name : String) (returning : Fields) :
    let first := table.delete ⟨name, p.groups, returning⟩
    let second := first.table.delete ⟨name, q.groups, returning⟩
    (table.delete ⟨name, (p.or q).groups, returning⟩).table = second.table ∧
      (table.delete ⟨name, (p.or q).groups, returning⟩).affected =
        first.affected + second.affected := by
  intro first second
  have haccept : Conditions.accept (p.or q).groups = fun row =>
      Conditions.accept p.groups row || Conditions.accept q.groups row :=
    funext (Formula.accept_or p q)
  constructor
  · simp only [first, second, delete, haccept, List.filter_filter, Bool.not_or, Bool.and_comm]
  · simp only [first, second, delete, haccept]
    exact length_filter_or _ _ table.rows

/-- The clause that is read chooses the rows of which the chain is true with AND binding
tighter than OR, and without it every row is chosen. Two chains joined by OR select in order
the rows of which one of them is true, and delete what they delete one after the other. -/
theorem where_semantics :
    (∀ (tokens rest : List Token) (groups : Conditions),
      Parser.whereClause tokens = .ok (groups, rest) →
        (tokens.head? ≠ some (.keyword .where) → ∀ row, groups.accept row = true) ∧
        (tokens.head? = some (.keyword .where) →
          ∃ f : Formula, f.Plain ∧ tokens = .keyword .where :: f.tokens ++ rest) ∧
        ∀ f : Formula, f.Plain → tokens = .keyword .where :: f.tokens ++ rest →
          ∀ row, groups.accept row = true ↔ f.Holds row) ∧
    ∀ p q : Formula, p.Plain → q.Plain → ∀ (table : Table) (name : String),
      (∀ fields : Fields, fields.Chosen →
        ∃ both : Select, Statement.ofTokens ((p.or q).selection name fields) = .ok (.select both) ∧
          table.select both =
            (table.rows.filter fun row => p.Holds row ∨ q.Holds row).map fields.select) ∧
      ∀ returning : Fields, ∃ both first second : Delete,
        Statement.ofTokens ((p.or q).deletion name returning) = .ok (.delete both) ∧
        Statement.ofTokens (p.deletion name returning) = .ok (.delete first) ∧
        Statement.ofTokens (q.deletion name returning) = .ok (.delete second) ∧
        (table.delete both).table = ((table.delete first).table.delete second).table ∧
        (table.delete both).affected =
          (table.delete first).affected + ((table.delete first).table.delete second).affected := by
  constructor
  · intro tokens rest groups h
    obtain ⟨hnone, hsome, hread⟩ := Formula.groups_of_whereClause h
    refine ⟨fun hw row => ?_, hsome, fun f hf he row => ?_⟩
    · rw [hnone hw]
      rfl
    · rw [← hread f hf he]
      exact Formula.accept_groups_iff hf row
  · intro p q hp hq table name
    -- Two formulas that need no parentheses need none when OR joins them.
    have hboth : (p.or q).Plain := ⟨hp, hq⟩
    refine ⟨fun fields hf => ?_, fun returning => ?_⟩
    · exact ⟨_, Formula.ofTokens_selection hboth name hf, select_or hp hq table name fields⟩
    · exact ⟨_, _, _, Formula.ofTokens_deletion hboth name returning,
        Formula.ofTokens_deletion hp name returning, Formula.ofTokens_deletion hq name returning,
        delete_or p q table name returning⟩

/-- A chain with an AND behind an OR, and another one: the first row passes the first
comparison only, the second the other two, and the third nothing. -/
theorem where_semantics_of_text :
    let p : Formula := .or (.comparison ⟨"id", .equal, .text "a"⟩)
      (.and (.comparison ⟨"on", .notEqual, .boolean true⟩)
        (.comparison ⟨"id", .notEqual, .text "c"⟩))
    let q : Formula := .comparison ⟨"size", .less, .null⟩
    let table : Table := ⟨[⟨"id", .text⟩, ⟨"on", .boolean⟩],
      [⟨[("id", .text "a"), ("on", .boolean true)]⟩, ⟨[("id", .text "b"), ("on", .null)]⟩,
        ⟨[("id", .text "c"), ("on", .null)]⟩]⟩
    (p.Plain ∧ q.Plain ∧ Parser.whereClause (.keyword .where :: p.tokens) = .ok (p.groups, [])) ∧
    (∀ row, Conditions.accept p.groups row = true ↔ p.Holds row) ∧
      ∃ both : Select,
        Statement.ofTokens ((p.or q).selection "t" (.named ["id"])) = .ok (.select both) ∧
          table.select both = [⟨[("id", .text "a")]⟩, ⟨[("id", .text "b")]⟩] := by
  intro p q table
  have hp : p.Plain := by simp only [p, Formula.Plain, Formula.Conjunctive]; decide
  have hq : q.Plain := by simp only [q, Formula.Plain]; decide
  have hread : Parser.whereClause (.keyword .where :: p.tokens) = .ok (p.groups, []) := rfl
  obtain ⟨hclause, hjoined⟩ := where_semantics
  obtain ⟨both, htokens, hselect⟩ := (hjoined p q hp hq table "t").1 (.named ["id"]) nofun
  refine ⟨⟨hp, hq, hread⟩, ?_, both, htokens, hselect.trans (by decide)⟩
  exact (hclause _ _ _ hread).2.2 p hp (List.append_nil _).symm

end Table

end EmbeddedSql
