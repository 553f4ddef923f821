import EmbeddedSql.Proofs.Sql.Parsing

/-!
# Formulas and the groups that they are read as

A condition is written without parentheses, so AND has to bind tighter than OR: a chain of
comparisons stands for the formulas in which no OR is below an AND. Any such formula is read
as its groups, and every condition that can be written is one of such a formula.
-/

namespace EmbeddedSql.Sql

/-- Comparisons joined by AND and OR. -/
inductive Formula where
  /-- A comparison. -/
  | comparison (c : Condition)
  /-- Both formulas. -/
  | and (f g : Formula)
  /-- One of the formulas or both. -/
  | or (f g : Formula)
  deriving DecidableEq, Repr

namespace Formula

/-- The chain that a formula is written as, without parentheses. -/
def tokens : Formula → List Token
  | .comparison c => c.tokens
  | .and f g => f.tokens ++ .keyword .and :: g.tokens
  | .or f g => f.tokens ++ .keyword .or :: g.tokens

/-- There is no OR in the formula, and every comparison has one of the six operators. -/
def Conjunctive : Formula → Prop
  | .comparison c => c.operator ∈ Operator.comparisons
  | .and f g => f.Conjunctive ∧ g.Conjunctive
  | .or _ _ => False

/-- The formula needs no parentheses when AND binds tighter than OR: no OR is below an AND.
Every comparison has one of the six operators. -/
def Plain : Formula → Prop
  | .comparison c => c.operator ∈ Operator.comparisons
  | .and f g => f.Conjunctive ∧ g.Conjunctive
  | .or f g => f.Plain ∧ g.Plain

/-- The comparisons of a formula, in order. -/
def comparisons : Formula → List Condition
  | .comparison c => [c]
  | .and f g => f.comparisons ++ g.comparisons
  | .or f g => f.comparisons ++ g.comparisons

/-- The groups of a formula: the comparisons between two ORs. -/
def groups : Formula → Conditions
  | .comparison c => [[c]]
  | .and f g => [f.comparisons ++ g.comparisons]
  | .or f g => f.groups ++ g.groups

/-- A formula has a comparison. -/
theorem comparisons_ne_nil (f : Formula) : f.comparisons ≠ [] := by
  induction f with
  | comparison c => exact List.cons_ne_nil _ _
  | and f g hf hg => exact List.append_ne_nil_of_left_ne_nil hf _
  | or f g hf hg => exact List.append_ne_nil_of_left_ne_nil hf _

/-- A formula has a group. -/
theorem groups_ne_nil (f : Formula) : f.groups ≠ [] := by
  induction f with
  | comparison c => exact List.cons_ne_nil _ _
  | and f g hf hg => exact List.cons_ne_nil _ _
  | or f g hf hg => exact List.append_ne_nil_of_left_ne_nil hf _

/-- A formula without OR is one that needs no parentheses. -/
theorem Conjunctive.plain {f : Formula} (h : f.Conjunctive) : f.Plain := by
  cases f with
  | comparison c => exact h
  | and f g => exact h
  | or f g => cases h

/-- It is a single group. -/
theorem Conjunctive.groups_eq {f : Formula} (h : f.Conjunctive) : f.groups = [f.comparisons] := by
  cases f with
  | comparison c => rfl
  | and f g => rfl
  | or f g => cases h

/-! ## What is written -/

/-- What stands between entries also stands between two lists of them. -/
theorem intercalate_append {between : List Token} {entries more : List (List Token)}
    (he : entries ≠ []) (hm : more ≠ []) : between.intercalate (entries ++ more) =
      between.intercalate entries ++ between ++ between.intercalate more := by
  obtain ⟨next, others, rfl⟩ := List.exists_cons_of_ne_nil hm
  induction entries with
  | nil => exact absurd rfl he
  | cons first rest ih =>
    cases rest with
    | nil => rw [List.singleton_append, List.intercalate_cons_cons, List.intercalate_singleton]
    | cons second rest =>
      rw [List.cons_append, List.cons_append, List.intercalate_cons_cons, ← List.cons_append,
        ih (List.cons_ne_nil _ _), List.intercalate_cons_cons]
      simp only [List.append_assoc]

/-- The conditions of two groups are written with an AND between them. -/
theorem groupTokens_append {group more : List Condition} (hg : group ≠ []) (hm : more ≠ []) :
    groupTokens (group ++ more) = groupTokens group ++ .keyword .and :: groupTokens more := by
  rw [groupTokens, List.map_append, intercalate_append (by simpa using hg) (by simpa using hm),
    List.append_assoc]
  rfl

/-- The groups of two lists are written with an OR between them. -/
theorem conditionTokens_append {groups more : Conditions} (hg : groups ≠ []) (hm : more ≠ []) :
    conditionTokens (groups ++ more) =
      conditionTokens groups ++ .keyword .or :: conditionTokens more := by
  rw [conditionTokens, List.map_append, intercalate_append (by simpa using hg) (by simpa using hm),
    List.append_assoc]
  rfl

/-- A formula without OR is written like the group of its comparisons. -/
theorem Conjunctive.tokens_eq {f : Formula} (h : f.Conjunctive) :
    f.tokens = groupTokens f.comparisons := by
  induction f with
  | comparison c => exact (groupTokens_singleton c).symm
  | and f g hf hg =>
    rw [tokens, comparisons, hf h.1, hg h.2,
      groupTokens_append f.comparisons_ne_nil g.comparisons_ne_nil]
  | or f g => cases h

/-- A formula is written as its groups are. -/
theorem Plain.tokens_eq {f : Formula} (h : f.Plain) : f.tokens = conditionTokens f.groups := by
  induction f with
  | comparison c => rw [groups, conditionTokens_singleton, groupTokens_singleton, tokens]
  | and f g =>
    have hboth : (Formula.and f g).Conjunctive := h
    rw [hboth.tokens_eq, hboth.groups_eq, conditionTokens_singleton]
  | or f g hf hg =>
    rw [tokens, groups, hf h.1, hg h.2, conditionTokens_append f.groups_ne_nil g.groups_ne_nil]

/-- The comparisons of a formula without OR have one of the six operators. -/
theorem Conjunctive.forall_comparisons {f : Formula} (h : f.Conjunctive) :
    ∀ c ∈ f.comparisons, c.operator ∈ Operator.comparisons := by
  induction f with
  | comparison c => exact List.forall_mem_singleton.mpr h
  | and f g hf hg => exact List.forall_mem_append.mpr ⟨hf h.1, hg h.2⟩
  | or f g => cases h

/-- The groups of a plain formula are not empty and hold comparisons only. -/
theorem Plain.wellFormed {f : Formula} (h : f.Plain) : Conditions.WellFormed f.groups := by
  induction f with
  | comparison c =>
    exact List.forall_mem_singleton.mpr ⟨List.cons_ne_nil _ _, List.forall_mem_singleton.mpr h⟩
  | and f g =>
    have hboth : (Formula.and f g).Conjunctive := h
    rw [hboth.groups_eq]
    exact List.forall_mem_singleton.mpr ⟨comparisons_ne_nil _, hboth.forall_comparisons⟩
  | or f g hf hg => exact List.forall_mem_append.mpr ⟨hf h.1, hg h.2⟩

/-! ## What is read -/

/-- The comparisons of a group make up a formula without OR. -/
theorem exists_conjunctive {group : List Condition} (hg : group ≠ [])
    (hc : ∀ c ∈ group, c.operator ∈ Operator.comparisons) :
    ∃ f : Formula, f.Conjunctive ∧ f.comparisons = group := by
  induction group with
  | nil => exact absurd rfl hg
  | cons c rest ih =>
    obtain ⟨hfirst, hrest⟩ := List.forall_mem_cons.mp hc
    by_cases hr : rest = []
    · exact ⟨.comparison c, hfirst, by rw [hr]; rfl⟩
    · obtain ⟨f, hf, rfl⟩ := ih hr hrest
      exact ⟨.and (.comparison c) f, ⟨hfirst, hf⟩, rfl⟩

/-- All groups that can be written are those of a formula. -/
theorem exists_plain {groups : Conditions} (hn : groups ≠ []) (hw : Conditions.WellFormed groups) :
    ∃ f : Formula, f.Plain ∧ f.groups = groups := by
  induction groups with
  | nil => exact absurd rfl hn
  | cons group rest ih =>
    obtain ⟨⟨hg, hc⟩, hrest⟩ := List.forall_mem_cons.mp hw
    obtain ⟨f, hf, rfl⟩ := exists_conjunctive hg hc
    by_cases hr : rest = []
    · exact ⟨f, hf.plain, by rw [hr, hf.groups_eq]⟩
    · obtain ⟨g, hg, rfl⟩ := ih hr hrest
      exact ⟨.or f g, ⟨hf.plain, hg⟩, by rw [Formula.groups, hf.groups_eq]; rfl⟩

/-- Groups are written in one way only. -/
theorem eq_of_conditionTokens_eq {groups others : Conditions} (hg : groups ≠ [])
    (ho : others ≠ []) (hgw : Conditions.WellFormed groups) (how : Conditions.WellFormed others)
    (h : conditionTokens groups = conditionTokens others) : groups = others := by
  have hread {list : Conditions} (hn : list ≠ []) (hw : Conditions.WellFormed list) :
      Parser.conditions (conditionTokens list) = .ok (list, []) := by
    have hc := @Parser.conditions_conditionTokens list [] hn hw (by simp) (by simp)
    rwa [List.append_nil] at hc
  have heq := (hread hg hgw).symm.trans (h ▸ hread ho how)
  exact (Prod.mk.inj (Except.ok.inj heq)).1

/-- The clause of a condition is read as the groups of every formula that it is written as, and
there is one. Without the clause there are no groups. -/
theorem groups_of_whereClause {tokens rest : List Token} {groups : Conditions}
    (h : Parser.whereClause tokens = .ok (groups, rest)) :
    (tokens.head? ≠ some (.keyword .where) → groups = []) ∧
      (tokens.head? = some (.keyword .where) →
        ∃ f : Formula, f.Plain ∧ tokens = .keyword .where :: f.tokens ++ rest) ∧
      ∀ f : Formula, f.Plain → tokens = .keyword .where :: f.tokens ++ rest →
        f.groups = groups := by
  unfold Parser.whereClause at h
  split at h
  next more =>
    obtain ⟨hn, hw, rfl⟩ := Parser.eq_of_conditions h
    refine ⟨fun hne => absurd rfl hne, fun _ => ?_, fun f hf he => ?_⟩
    · obtain ⟨f, hf, rfl⟩ := exists_plain hn hw
      exact ⟨f, hf, by rw [hf.tokens_eq]; rfl⟩
    · have htokens : conditionTokens f.groups = conditionTokens groups := by
        rw [← hf.tokens_eq]
        exact (List.append_cancel_right (List.cons.inj he).2).symm
      exact eq_of_conditionTokens_eq f.groups_ne_nil hn hf.wellFormed hw htokens
  next hne =>
    obtain ⟨rfl, rfl⟩ := Prod.mk.inj (Except.ok.inj h)
    refine ⟨fun _ => rfl, fun hs => ?_, fun f _ he => absurd he (hne _)⟩
    obtain ⟨more, rfl⟩ := List.head?_eq_some_iff.mp hs
    exact absurd rfl (hne more)

end Formula

end EmbeddedSql.Sql
