import EmbeddedSql.Proofs.Result
import EmbeddedSql.Proofs.Sql.Grammar

/-!
# Reading exactly what is written

A list of tokens is read as a statement if and only if it is what that statement
is written as. For every construct there are two lemmas: what was read was
written that way, and what is written is read, up to a token with which the
construct cannot go on. Both follow the recursion of the reader and of the list,
and the lemmas of a statement are put together from those of its constructs.
-/

namespace EmbeddedSql.Sql

open Result

/-- One entry is written without a comma. -/
theorem commas_singleton (entry : List Token) : commas [entry] = entry := by
  simp [commas, List.intercalate]

/-- Behind an entry that is not the last one stands a comma. -/
theorem commas_cons {entries : List (List Token)} (h : entries ≠ []) (entry : List Token) :
    commas (entry :: entries) = entry ++ .symbol .comma :: commas entries := by
  cases entries with
  | nil => exact absurd rfl h
  | cons next rest => simp [commas, List.intercalate]

/-- Entries with commas are the first one and every other behind a comma. -/
theorem commas_eq_flatMap (entry : List Token) (entries : List (List Token)) :
    commas (entry :: entries) = entry ++ entries.flatMap (.symbol .comma :: ·) := by
  induction entries generalizing entry with
  | nil => simp [commas_singleton]
  | cons next rest ih => rw [commas_cons (List.cons_ne_nil _ _), ih, List.flatMap_cons]; simp

/-- One condition is written without AND. -/
theorem groupTokens_singleton (c : Condition) : groupTokens [c] = c.tokens := by
  simp [groupTokens, List.intercalate]

/-- Behind a condition that is not the last one of its group stands AND. -/
theorem groupTokens_cons {group : List Condition} (h : group ≠ []) (c : Condition) :
    groupTokens (c :: group) = c.tokens ++ .keyword .and :: groupTokens group := by
  cases group with
  | nil => exact absurd rfl h
  | cons next rest => simp [groupTokens, List.intercalate]

/-- One group is written without OR. -/
theorem conditionTokens_singleton (group : List Condition) :
    conditionTokens [group] = groupTokens group := by
  simp [conditionTokens, List.intercalate]

/-- Behind a group that is not the last one stands OR. -/
theorem conditionTokens_cons {groups : Conditions} (h : groups ≠ []) (group : List Condition) :
    conditionTokens (group :: groups) =
      groupTokens group ++ .keyword .or :: conditionTokens groups := by
  cases groups with
  | nil => exact absurd rfl h
  | cons next rest => simp [conditionTokens, List.intercalate]

/-- Adding a comparison to the first group writes it in front with AND. -/
theorem conditionTokens_conjoin {group : List Condition} (hg : group ≠ []) (c : Condition)
    (groups : Conditions) :
    conditionTokens ((c :: group) :: groups) =
      c.tokens ++ .keyword .and :: conditionTokens (group :: groups) := by
  cases groups with
  | nil => rw [conditionTokens_singleton, conditionTokens_singleton, groupTokens_cons hg]
  | cons next rest =>
    rw [conditionTokens_cons (List.cons_ne_nil _ _), conditionTokens_cons (List.cons_ne_nil _ _),
      groupTokens_cons hg, List.append_assoc, List.cons_append]

/-- The operators that compare are the six. -/
theorem isComparison_iff {op : Operator} : op.isComparison = true ↔ op ∈ Operator.comparisons := by
  cases op <;> decide

namespace Parser

/-! ## What was read was written -/

/-- The token that was read is the wanted one. -/
theorem eq_of_token {wanted : Token} {expected : Expectation} {tokens rest : List Token}
    (h : token wanted expected tokens = .ok rest) : tokens = wanted :: rest := by
  cases tokens with
  | nil => cases h
  | cons found more =>
    simp only [token] at h
    split at h
    next he =>
      cases h
      rw [he]
    next => cases h

/-- The token that was read is the name. -/
theorem eq_of_identifier {tokens rest : List Token} {name : String}
    (h : identifier tokens = .ok (name, rest)) : tokens = .identifier name :: rest := by
  unfold identifier at h
  split at h
  · cases h
    rfl
  · cases h

/-- A list of names was read from what it is written as. -/
theorem eq_of_names {tokens rest : List Token} {list : List String}
    (h : names tokens = .ok (list, rest)) : list ≠ [] ∧ tokens = nameTokens list ++ rest := by
  fun_induction names tokens generalizing list rest with
  | case1 name more ih =>
    obtain ⟨⟨others, rest'⟩, hm, he⟩ := bind_eq_ok_iff.mp h
    cases he
    obtain ⟨ho, rfl⟩ := ih hm
    refine ⟨List.cons_ne_nil _ _, ?_⟩
    simp [nameTokens, commas_cons, ho]
  | case2 name more _ =>
    cases h
    exact ⟨List.cons_ne_nil _ _, by simp [nameTokens, commas_singleton]⟩
  | case3 tokens _ _ => cases h

/-- An asterisk or a list of names was read from what it is written as. -/
theorem eq_of_fields {tokens rest : List Token} {choice : Fields}
    (h : fields tokens = .ok (choice, rest)) : choice.Chosen ∧ tokens = choice.tokens ++ rest := by
  unfold fields at h
  split at h
  · cases h
    exact ⟨by simp [Fields.Chosen], rfl⟩
  · obtain ⟨⟨list, rest'⟩, hn, he⟩ := bind_eq_ok_iff.mp h
    cases he
    obtain ⟨hl, ht⟩ := eq_of_names hn
    exact ⟨by simpa [Fields.Chosen] using hl, ht⟩

/-- A RETURNING clause, or none, was read from what it is written as. -/
theorem eq_of_returning {tokens rest : List Token} {choice : Fields}
    (h : returning tokens = .ok (choice, rest)) : tokens = returningTokens choice ++ rest := by
  unfold returning at h
  split at h
  next more =>
    obtain ⟨hc, rfl⟩ := eq_of_fields h
    unfold returningTokens
    split
    · exact absurd rfl hc
    · rfl
  next =>
    cases h
    rfl

/-- Conditions were read from what they are written as; no group is empty, and each operator is
a comparison. -/
theorem eq_of_conditions {tokens rest : List Token} {groups : Conditions}
    (h : conditions tokens = .ok (groups, rest)) :
    groups ≠ [] ∧ Conditions.WellFormed groups ∧ tokens = conditionTokens groups ++ rest := by
  -- By induction along the parser: AND adds to the first group that follows, and OR begins
  -- another one.
  fun_induction conditions tokens generalizing groups rest with
  | case1 field op value hop more ih =>
    obtain ⟨⟨others, rest'⟩, hm, he⟩ := bind_eq_ok_iff.mp h
    cases he
    obtain ⟨ho, hw, rfl⟩ := ih hm
    obtain ⟨group, others, rfl⟩ := List.exists_cons_of_ne_nil ho
    obtain ⟨⟨hg, hgs⟩, hos⟩ := List.forall_mem_cons.mp hw
    refine ⟨List.cons_ne_nil _ _, ?_, ?_⟩
    · refine List.forall_mem_cons.mpr ⟨⟨List.cons_ne_nil _ _, ?_⟩, hos⟩
      exact List.forall_mem_cons.mpr ⟨isComparison_iff.mp hop, hgs⟩
    · rw [conjoin, conditionTokens_conjoin hg]
      rfl
  | case2 field op value hop more ih =>
    obtain ⟨⟨others, rest'⟩, hm, he⟩ := bind_eq_ok_iff.mp h
    cases he
    obtain ⟨ho, hw, rfl⟩ := ih hm
    refine ⟨List.cons_ne_nil _ _, ?_, ?_⟩
    · refine List.forall_mem_cons.mpr ⟨⟨List.cons_ne_nil _ _, ?_⟩, hw⟩
      exact List.forall_mem_singleton.mpr (isComparison_iff.mp hop)
    · rw [conditionTokens_cons ho, groupTokens_singleton]
      rfl
  | case3 field op value hop more _ _ =>
    cases h
    refine ⟨List.cons_ne_nil _ _, ?_, ?_⟩
    · refine List.forall_mem_singleton.mpr ⟨List.cons_ne_nil _ _, ?_⟩
      exact List.forall_mem_singleton.mpr (isComparison_iff.mp hop)
    · rw [conditionTokens_singleton, groupTokens_singleton]
      rfl
  | case4 => cases h
  | case5 => cases h
  | case6 => cases h
  | case7 => cases h
  | case8 => cases h

/-- A WHERE clause, or none, was read from what it is written as. -/
theorem eq_of_whereClause {tokens rest : List Token} {groups : Conditions}
    (h : whereClause tokens = .ok (groups, rest)) :
    Conditions.WellFormed groups ∧ tokens = whereTokens groups ++ rest := by
  unfold whereClause at h
  split at h
  next more =>
    obtain ⟨hg, hw, rfl⟩ := eq_of_conditions h
    obtain ⟨group, others, rfl⟩ := List.exists_cons_of_ne_nil hg
    exact ⟨hw, rfl⟩
  next =>
    cases h
    exact ⟨List.forall_mem_nil _, rfl⟩

/-- A list of assignments was read from what it is written as. -/
theorem eq_of_assignments {tokens rest : List Token} {list : List Assignment}
    (h : assignments tokens = .ok (list, rest)) :
    list ≠ [] ∧ tokens = commas (list.map Assignment.tokens) ++ rest := by
  fun_induction assignments tokens generalizing list rest with
  | case1 field value more ih =>
    obtain ⟨⟨others, rest'⟩, hm, he⟩ := bind_eq_ok_iff.mp h
    cases he
    obtain ⟨ho, rfl⟩ := ih hm
    refine ⟨List.cons_ne_nil _ _, ?_⟩
    simp [commas_cons, ho, Assignment.tokens]
  | case2 field value more _ =>
    cases h
    exact ⟨List.cons_ne_nil _ _, by simp [commas_singleton, Assignment.tokens]⟩
  | case3 => cases h
  | case4 => cases h
  | case5 => cases h

/-- A list of columns was read from what it is written as. -/
theorem eq_of_columns {tokens rest : List Token} {list : List Column}
    (h : columns tokens = .ok (list, rest)) :
    list ≠ [] ∧ tokens = commas (list.map Column.tokens) ++ rest := by
  fun_induction columns tokens generalizing list rest with
  | case1 name type more ih =>
    obtain ⟨⟨others, rest'⟩, hm, he⟩ := bind_eq_ok_iff.mp h
    cases he
    obtain ⟨ho, rfl⟩ := ih hm
    refine ⟨List.cons_ne_nil _ _, ?_⟩
    simp [commas_cons, ho, Column.tokens]
  | case2 name type more _ =>
    cases h
    exact ⟨List.cons_ne_nil _ _, by simp [commas_singleton, Column.tokens]⟩
  | case3 => cases h
  | case4 => cases h

/-- What is read on in a tuple is the rest of its values, and then whole tuples
behind commas. -/
theorem eq_of_tuplesFrom {arity : Option Nat} {front : List Value} {tokens rest : List Token}
    {list : List (List Value)} (h : tuplesFrom arity front tokens = .ok (list, rest)) :
    ∃ last others, list = (front ++ last) :: others ∧ last ≠ [] ∧
      (∀ tuple ∈ list, tuple ≠ [] ∧ ∀ n, arity = some n → tuple.length = n) ∧
      tokens = commas (last.map fun value => [.literal value]) ++ .symbol .rightParen ::
        (others.map tupleTokens).flatMap (.symbol .comma :: ·) ++ rest := by
  fun_induction tuplesFrom arity front tokens generalizing list rest with
  | case1 front value more ih =>
    obtain ⟨last, others, rfl, hl, ha, rfl⟩ := ih h
    refine ⟨value :: last, others, by simp, List.cons_ne_nil _ _, by simpa using ha, ?_⟩
    simp [commas_cons, hl]
  | case2 front value tuple count hc =>
    rename_i more ih
    obtain ⟨⟨behind, rest'⟩, hm, he⟩ := bind_eq_ok_iff.mp h
    cases he
    obtain ⟨last, others, rfl, hl, ha, rfl⟩ := ih hm
    refine ⟨[value], last :: others, rfl, List.cons_ne_nil _ _, ?_, ?_⟩
    · have hne := List.append_ne_nil_of_right_ne_nil front (List.cons_ne_nil value [])
      refine List.forall_mem_cons.mpr ⟨⟨hne, ?_⟩, ha⟩
      rintro n rfl
      exact hc.symm
    · simp [commas_singleton, tupleTokens, parenthesized]
  | case3 => cases h
  | case4 front value tuple count hc =>
    cases h
    refine ⟨[value], [], rfl, List.cons_ne_nil _ _, ?_, by simp [commas_singleton]⟩
    have hne := List.append_ne_nil_of_right_ne_nil front (List.cons_ne_nil value [])
    refine List.forall_mem_singleton.mpr ⟨hne, ?_⟩
    rintro n rfl
    exact hc.symm
  | case5 => cases h
  | case6 => cases h
  | case7 => cases h

/-- Tuples were read from what they are written as. Each has values, and as many as are asked
for. -/
theorem eq_of_tuples {arity : Option Nat} {tokens rest : List Token} {list : List (List Value)}
    (h : tuples arity tokens = .ok (list, rest)) :
    list ≠ [] ∧ (∀ tuple ∈ list, tuple ≠ [] ∧ ∀ n, arity = some n → tuple.length = n) ∧
      tokens = commas (list.map tupleTokens) ++ rest := by
  obtain ⟨more, hs, hm⟩ := bind_eq_ok_iff.mp h
  obtain ⟨last, others, rfl, hl, ha, rfl⟩ := eq_of_tuplesFrom hm
  have ht := eq_of_token hs
  refine ⟨List.cons_ne_nil _ _, ha, ?_⟩
  rw [ht, List.map_cons, commas_eq_flatMap]
  simp [tupleTokens, parenthesized]

/-- The fields of an INSERT, or none, were read from what they are written as. -/
theorem eq_of_insertFields {tokens rest : List Token} {choice : Fields}
    (h : insertFields tokens = .ok (choice, rest)) :
    choice.Chosen ∧ tokens = listedTokens choice ++ rest := by
  unfold insertFields at h
  split at h
  next more =>
    obtain ⟨⟨list, behind⟩, hn, hp⟩ := bind_eq_ok_iff.mp h
    obtain ⟨last, hs, he⟩ := bind_eq_ok_iff.mp hp
    cases he
    obtain ⟨hl, rfl⟩ := eq_of_names hn
    have ht := eq_of_token hs
    refine ⟨by simpa [Fields.Chosen] using hl, ?_⟩
    simp [listedTokens, parenthesized, nameTokens, ht]
  next =>
    cases h
    exact ⟨by simp [Fields.Chosen], rfl⟩

/-- IF NOT EXISTS, or its absence, was read from what it is written as. -/
theorem eq_of_ifNotExists {tokens rest : List Token} {flag : Bool}
    (h : ifNotExists tokens = .ok (flag, rest)) : tokens = ifNotExistsTokens flag ++ rest := by
  unfold ifNotExists at h
  split at h
  next more =>
    obtain ⟨second, hn, hs⟩ := bind_eq_ok_iff.mp h
    obtain ⟨third, hx, he⟩ := bind_eq_ok_iff.mp hs
    cases he
    rw [eq_of_token hn, eq_of_token hx]
    rfl
  next =>
    cases h
    rfl

/-- IF EXISTS, or its absence, was read from what it is written as. -/
theorem eq_of_ifExists {tokens rest : List Token} {flag : Bool}
    (h : ifExists tokens = .ok (flag, rest)) : tokens = ifExistsTokens flag ++ rest := by
  unfold ifExists at h
  split at h
  next more =>
    obtain ⟨second, hx, he⟩ := bind_eq_ok_iff.mp h
    cases he
    rw [eq_of_token hx]
    rfl
  next =>
    cases h
    rfl

/-- A SELECT was read from what it is written as, behind its first word. -/
theorem eq_of_select {tokens rest : List Token} {s : Statement}
    (h : select tokens = .ok (s, rest)) :
    s.WellFormed ∧ .keyword .select :: tokens = s.tokens ++ rest := by
  obtain ⟨⟨choice, behind⟩, hf, h⟩ := bind_eq_ok_iff.mp h
  obtain ⟨afterFrom, hk, h⟩ := bind_eq_ok_iff.mp h
  obtain ⟨⟨table, afterTable⟩, ht, h⟩ := bind_eq_ok_iff.mp h
  obtain ⟨⟨groups, afterWhere⟩, hw, h⟩ := bind_eq_ok_iff.mp h
  cases h
  obtain ⟨hc, rfl⟩ := eq_of_fields hf
  obtain ⟨hg, rfl⟩ := eq_of_whereClause hw
  refine ⟨⟨hc, hg⟩, ?_⟩
  simp [Statement.tokens, eq_of_token hk, eq_of_identifier ht]

/-- An INSERT was read from what it is written as, behind its first word. -/
theorem eq_of_insert {tokens rest : List Token} {s : Statement}
    (h : insert tokens = .ok (s, rest)) :
    s.WellFormed ∧ .keyword .insert :: tokens = s.tokens ++ rest := by
  obtain ⟨afterInto, hi, h⟩ := bind_eq_ok_iff.mp h
  obtain ⟨⟨table, afterTable⟩, ht, h⟩ := bind_eq_ok_iff.mp h
  obtain ⟨⟨choice, afterFields⟩, hf, h⟩ := bind_eq_ok_iff.mp h
  obtain ⟨afterValues, hk, h⟩ := bind_eq_ok_iff.mp h
  obtain ⟨⟨list, afterTuples⟩, hl, h⟩ := bind_eq_ok_iff.mp h
  obtain ⟨⟨wanted, afterReturning⟩, hr, h⟩ := bind_eq_ok_iff.mp h
  cases h
  obtain ⟨hc, rfl⟩ := eq_of_insertFields hf
  obtain ⟨hn, ha, rfl⟩ := eq_of_tuples hl
  have hret := eq_of_returning hr
  refine ⟨⟨hc, hn, fun tuple hm => ⟨(ha tuple hm).1, ?_⟩⟩, ?_⟩
  · rintro names ⟨⟩
    exact (ha tuple hm).2 names.length rfl
  · simp [Statement.tokens, eq_of_token hi, eq_of_identifier ht, eq_of_token hk, hret]

/-- An UPDATE was read from what it is written as, behind its first word. -/
theorem eq_of_update {tokens rest : List Token} {s : Statement}
    (h : update tokens = .ok (s, rest)) :
    s.WellFormed ∧ .keyword .update :: tokens = s.tokens ++ rest := by
  obtain ⟨⟨table, afterTable⟩, ht, h⟩ := bind_eq_ok_iff.mp h
  obtain ⟨afterSet, hk, h⟩ := bind_eq_ok_iff.mp h
  obtain ⟨⟨list, afterList⟩, hl, h⟩ := bind_eq_ok_iff.mp h
  obtain ⟨⟨groups, afterWhere⟩, hw, h⟩ := bind_eq_ok_iff.mp h
  obtain ⟨⟨wanted, afterReturning⟩, hr, h⟩ := bind_eq_ok_iff.mp h
  cases h
  obtain ⟨hn, rfl⟩ := eq_of_assignments hl
  obtain ⟨hg, rfl⟩ := eq_of_whereClause hw
  have hret := eq_of_returning hr
  refine ⟨⟨hn, hg⟩, ?_⟩
  simp [Statement.tokens, eq_of_token hk, eq_of_identifier ht, hret]

/-- A DELETE was read from what it is written as, behind its first word. -/
theorem eq_of_delete {tokens rest : List Token} {s : Statement}
    (h : delete tokens = .ok (s, rest)) :
    s.WellFormed ∧ .keyword .delete :: tokens = s.tokens ++ rest := by
  obtain ⟨afterFrom, hk, h⟩ := bind_eq_ok_iff.mp h
  obtain ⟨⟨table, afterTable⟩, ht, h⟩ := bind_eq_ok_iff.mp h
  obtain ⟨⟨groups, afterWhere⟩, hw, h⟩ := bind_eq_ok_iff.mp h
  obtain ⟨⟨wanted, afterReturning⟩, hr, h⟩ := bind_eq_ok_iff.mp h
  cases h
  obtain ⟨hg, rfl⟩ := eq_of_whereClause hw
  have hret := eq_of_returning hr
  refine ⟨hg, ?_⟩
  simp [Statement.tokens, eq_of_token hk, eq_of_identifier ht, hret]

/-- A CREATE TABLE was read from what it is written as, behind its first word. -/
theorem eq_of_create {tokens rest : List Token} {s : Statement}
    (h : create tokens = .ok (s, rest)) :
    s.WellFormed ∧ .keyword .create :: tokens = s.tokens ++ rest := by
  obtain ⟨afterWord, hk, h⟩ := bind_eq_ok_iff.mp h
  obtain ⟨⟨flag, afterFlag⟩, hf, h⟩ := bind_eq_ok_iff.mp h
  obtain ⟨⟨table, afterTable⟩, ht, h⟩ := bind_eq_ok_iff.mp h
  obtain ⟨afterOpen, ho, h⟩ := bind_eq_ok_iff.mp h
  obtain ⟨⟨list, afterList⟩, hl, h⟩ := bind_eq_ok_iff.mp h
  obtain ⟨afterClose, hc, h⟩ := bind_eq_ok_iff.mp h
  cases h
  obtain ⟨hn, rfl⟩ := eq_of_columns hl
  have hflag := eq_of_ifNotExists hf
  refine ⟨hn, ?_⟩
  simp [Statement.tokens, parenthesized, eq_of_token hk, hflag, eq_of_identifier ht,
    eq_of_token ho, eq_of_token hc]

/-- A DROP TABLE was read from what it is written as, behind its first word. -/
theorem eq_of_drop {tokens rest : List Token} {s : Statement}
    (h : drop tokens = .ok (s, rest)) :
    s.WellFormed ∧ .keyword .drop :: tokens = s.tokens ++ rest := by
  obtain ⟨afterWord, hk, h⟩ := bind_eq_ok_iff.mp h
  obtain ⟨⟨flag, afterFlag⟩, hf, h⟩ := bind_eq_ok_iff.mp h
  obtain ⟨⟨table, afterTable⟩, ht, h⟩ := bind_eq_ok_iff.mp h
  cases h
  have hflag := eq_of_ifExists hf
  refine ⟨trivial, ?_⟩
  simp [Statement.tokens, eq_of_token hk, hflag, eq_of_identifier ht]

/-- A statement was read from what it is written as, and it is well-formed. -/
theorem eq_of_statement {tokens rest : List Token} {s : Statement}
    (h : statement tokens = .ok (s, rest)) : s.WellFormed ∧ tokens = s.tokens ++ rest := by
  unfold statement at h
  split at h
  · cases h
  · exact eq_of_select h
  · exact eq_of_insert h
  · exact eq_of_update h
  · exact eq_of_delete h
  · exact eq_of_create h
  · exact eq_of_drop h
  · cases h

/-- Tokens that make up a statement as a whole are what it is written as. -/
theorem eq_of_whole {tokens : List Token} {s : Statement} (h : whole tokens = .ok s) :
    s.WellFormed ∧ tokens = s.tokens := by
  obtain ⟨⟨result, rest⟩, hs, h⟩ := bind_eq_ok_iff.mp h
  cases rest with
  | nil =>
    cases h
    simpa using eq_of_statement hs
  | cons found more => cases h

/-! ## What is written is read -/

/-- The reader of a token takes the token away. -/
theorem token_self (wanted : Token) (expected : Expectation) (rest : List Token) :
    token wanted expected (wanted :: rest) = .ok rest := by
  simp [token]

/-- A list of names is read from its tokens, up to where no comma follows. -/
theorem names_nameTokens {list : List String} {rest : List Token} (hl : list ≠ [])
    (hr : rest.head? ≠ some (.symbol .comma)) :
    names (nameTokens list ++ rest) = .ok (list, rest) := by
  induction list with
  | nil => exact absurd rfl hl
  | cons name others ih =>
    by_cases ho : others = []
    · subst ho
      rw [nameTokens, List.map_singleton, commas_singleton, List.singleton_append, names]
      rintro more rfl
      exact hr rfl
    · have ht : nameTokens (name :: others) ++ rest =
          .identifier name :: .symbol .comma :: (nameTokens others ++ rest) := by
        simp [nameTokens, commas_cons, ho]
      rw [ht, names, ih ho, ok_bind]

/-- An asterisk or a list of names is read from its tokens, up to where no comma follows. -/
theorem fields_tokens {choice : Fields} {rest : List Token} (hc : choice.Chosen)
    (hr : rest.head? ≠ some (.symbol .comma)) :
    fields (choice.tokens ++ rest) = .ok (choice, rest) := by
  cases choice with
  | all => rfl
  | named list =>
    have hl : list ≠ [] := fun he => hc (by rw [he])
    have hn := names_nameTokens hl hr
    rw [fields, Fields.tokens, hn, ok_bind]
    -- The first token is a name and so no star.
    obtain ⟨first, others, rfl⟩ := List.exists_cons_of_ne_nil hl
    intro more he
    rw [Fields.tokens, nameTokens, List.map_cons, commas_eq_flatMap] at he
    cases he

/-- A RETURNING clause, or none, is read from its tokens at the end of a statement. -/
theorem returning_returningTokens (choice : Fields) :
    returning (returningTokens choice) = .ok (choice, []) := by
  unfold returningTokens
  split
  · rfl
  next hc =>
    have hf : fields (choice.tokens ++ []) = .ok (choice, []) := fields_tokens hc (by simp)
    rw [returning, ← List.append_nil choice.tokens, hf]

/-- A condition that neither AND nor OR follows is the last one. -/
theorem conditions_last {c : Condition} {rest : List Token}
    (hc : c.operator ∈ Operator.comparisons) (ha : rest.head? ≠ some (.keyword .and))
    (ho : rest.head? ≠ some (.keyword .or)) :
    conditions (c.tokens ++ rest) = .ok ([[c]], rest) := by
  have hop := isComparison_iff.mpr hc
  simp only [Condition.tokens, List.cons_append, List.nil_append]
  rw [conditions.eq_def]
  simp only [hop, if_true]
  split
  · exact absurd rfl ha
  · exact absurd rfl ho
  · rfl

/-- A condition in front of AND joins the first group of what follows. -/
theorem conditions_and {c : Condition} {groups : Conditions} {tokens rest : List Token}
    (hc : c.operator ∈ Operator.comparisons) (h : conditions tokens = .ok (groups, rest)) :
    conditions (c.tokens ++ .keyword .and :: tokens) = .ok (conjoin c groups, rest) := by
  have hop := isComparison_iff.mpr hc
  simp only [Condition.tokens, List.cons_append, List.nil_append]
  rw [conditions, if_pos hop]
  simp only [h, ok_bind]

/-- A condition in front of OR is a group of its own. -/
theorem conditions_or {c : Condition} {groups : Conditions} {tokens rest : List Token}
    (hc : c.operator ∈ Operator.comparisons) (h : conditions tokens = .ok (groups, rest)) :
    conditions (c.tokens ++ .keyword .or :: tokens) = .ok ([c] :: groups, rest) := by
  have hop := isComparison_iff.mpr hc
  simp only [Condition.tokens, List.cons_append, List.nil_append]
  rw [conditions, if_pos hop]
  simp only [h, ok_bind]

/-- A group is read in front of the groups that are read behind it. -/
theorem conditions_group {group : List Condition} {groups : Conditions}
    {tokens rest : List Token} (hg : group ≠ [])
    (hc : ∀ c ∈ group, c.operator ∈ Operator.comparisons)
    (h : conditions tokens = .ok (groups, rest)) :
    conditions (groupTokens group ++ .keyword .or :: tokens) = .ok (group :: groups, rest) := by
  induction group with
  | nil => exact absurd rfl hg
  | cons c more ih =>
    obtain ⟨hcc, hcs⟩ := List.forall_mem_cons.mp hc
    by_cases hm : more = []
    · subst hm
      rw [groupTokens_singleton]
      exact conditions_or hcc h
    · rw [groupTokens_cons hm, List.append_assoc, List.cons_append, conditions_and hcc (ih hm hcs)]
      rfl

/-- The last group is read up to what is neither AND nor OR. -/
theorem conditions_lastGroup {group : List Condition} {rest : List Token} (hg : group ≠ [])
    (hc : ∀ c ∈ group, c.operator ∈ Operator.comparisons)
    (ha : rest.head? ≠ some (.keyword .and)) (ho : rest.head? ≠ some (.keyword .or)) :
    conditions (groupTokens group ++ rest) = .ok ([group], rest) := by
  induction group with
  | nil => exact absurd rfl hg
  | cons c more ih =>
    obtain ⟨hcc, hcs⟩ := List.forall_mem_cons.mp hc
    by_cases hm : more = []
    · subst hm
      rw [groupTokens_singleton]
      exact conditions_last hcc ha ho
    · rw [groupTokens_cons hm, List.append_assoc, List.cons_append, conditions_and hcc (ih hm hcs)]
      rfl

/-- Conditions are read from their tokens, up to where neither AND nor OR follows. -/
theorem conditions_conditionTokens {groups : Conditions} {rest : List Token} (hn : groups ≠ [])
    (hw : Conditions.WellFormed groups) (ha : rest.head? ≠ some (.keyword .and))
    (ho : rest.head? ≠ some (.keyword .or)) :
    conditions (conditionTokens groups ++ rest) = .ok (groups, rest) := by
  induction groups with
  | nil => exact absurd rfl hn
  | cons group others ih =>
    obtain ⟨⟨hg, hc⟩, hos⟩ := List.forall_mem_cons.mp hw
    by_cases hr : others = []
    · subst hr
      rw [conditionTokens_singleton]
      exact conditions_lastGroup hg hc ha ho
    · rw [conditionTokens_cons hr, List.append_assoc, List.cons_append]
      exact conditions_group hg hc (ih hr hos)

/-- A WHERE clause, or none, is read from its tokens, up to where it cannot go on or begin. -/
theorem whereClause_whereTokens {groups : Conditions} {rest : List Token}
    (hw : Conditions.WellFormed groups) (ha : rest.head? ≠ some (.keyword .and))
    (ho : rest.head? ≠ some (.keyword .or)) (hr : rest.head? ≠ some (.keyword .where)) :
    whereClause (whereTokens groups ++ rest) = .ok (groups, rest) := by
  cases groups with
  | nil =>
    rw [whereTokens, List.nil_append, whereClause]
    rintro more rfl
    exact hr rfl
  | cons group others =>
    exact conditions_conditionTokens (List.cons_ne_nil _ _) hw ha ho

/-- A list of assignments is read from its tokens, up to where no comma follows. -/
theorem assignments_tokens {list : List Assignment} {rest : List Token} (hl : list ≠ [])
    (hr : rest.head? ≠ some (.symbol .comma)) :
    assignments (commas (list.map Assignment.tokens) ++ rest) = .ok (list, rest) := by
  induction list with
  | nil => exact absurd rfl hl
  | cons a others ih =>
    by_cases ho : others = []
    · subst ho
      rw [List.map_singleton, commas_singleton, Assignment.tokens, List.cons_append,
        List.cons_append, List.cons_append, List.nil_append, assignments]
      rintro more rfl
      exact hr rfl
    · have ht : commas ((a :: others).map Assignment.tokens) ++ rest = .identifier a.field ::
          .operator .equal :: .literal a.value :: .symbol .comma ::
          (commas (others.map Assignment.tokens) ++ rest) := by
        simp [commas_cons, ho, Assignment.tokens]
      rw [ht, assignments, ih ho, ok_bind]

/-- A list of columns is read from its tokens, up to where no comma follows. -/
theorem columns_tokens {list : List Column} {rest : List Token} (hl : list ≠ [])
    (hr : rest.head? ≠ some (.symbol .comma)) :
    columns (commas (list.map Column.tokens) ++ rest) = .ok (list, rest) := by
  induction list with
  | nil => exact absurd rfl hl
  | cons c others ih =>
    by_cases ho : others = []
    · subst ho
      rw [List.map_singleton, commas_singleton, Column.tokens, List.cons_append,
        List.cons_append, List.nil_append, columns]
      rintro more rfl
      exact hr rfl
    · have ht : commas ((c :: others).map Column.tokens) ++ rest = .identifier c.name ::
          .columnType c.type :: .symbol .comma ::
          (commas (others.map Column.tokens) ++ rest) := by
        simp [commas_cons, ho, Column.tokens]
      rw [ht, columns, ih ho, ok_bind]

/-- Inside a tuple a value in front of a comma is put to those before it. -/
theorem tuplesFrom_comma (arity : Option Nat) (front : List Value) (value : Value)
    (rest : List Token) :
    tuplesFrom arity front (.literal value :: .symbol .comma :: rest) =
      tuplesFrom arity (front ++ [value]) rest := by
  rw [tuplesFrom]

/-- The last value of a tuple and what follows it: other tuples behind a comma,
or something else. -/
theorem tuplesFrom_close {arity : Option Nat} {front : List Value} {value : Value}
    {others : List (List Value)} {rest : List Token}
    (ha : ∀ n, arity = some n → (front ++ [value]).length = n)
    (hr : rest.head? ≠ some (.symbol .comma))
    (ho : others ≠ [] → tuples arity (commas (others.map tupleTokens) ++ rest) =
      .ok (others, rest)) :
    tuplesFrom arity front (.literal value :: .symbol .rightParen ::
      (others.map tupleTokens).flatMap (.symbol .comma :: ·) ++ rest) =
      .ok ((front ++ [value]) :: others, rest) := by
  have hcount : arity.getD (front ++ [value]).length = (front ++ [value]).length := by
    cases arity with
    | none => rfl
    | some n => exact (ha n rfl).symm
  rw [List.cons_append, List.cons_append, tuplesFrom.eq_def]
  simp only [hcount, if_true]
  cases others with
  | nil =>
    simp only [List.map_nil, List.flatMap_nil, List.nil_append]
    split
    · exact absurd rfl hr
    · exact absurd rfl hr
    · rfl
  | cons tuple more =>
    have ht := ho (List.cons_ne_nil _ _)
    rw [List.map_cons, commas_eq_flatMap, tupleTokens, parenthesized, tuples] at ht
    obtain ⟨behind, hs, ht⟩ := bind_eq_ok_iff.mp ht
    have hb := eq_of_token hs
    simp only [List.cons_append, List.cons.injEq, true_and] at hb
    simp only [List.map_cons, List.flatMap_cons, tupleTokens, parenthesized, List.cons_append]
    rw [hb, ht, ok_bind]

/-- Inside a tuple the remaining values are read up to its closing parenthesis, and the tuples
behind it follow. The number of values is looked at when the tuple is complete. -/
theorem tuplesFrom_tokens {arity : Option Nat} {front last : List Value}
    {others : List (List Value)} {rest : List Token} (hl : last ≠ [])
    (ha : ∀ n, arity = some n → (front ++ last).length = n)
    (hr : rest.head? ≠ some (.symbol .comma))
    (ho : others ≠ [] → tuples arity (commas (others.map tupleTokens) ++ rest) =
      .ok (others, rest)) :
    tuplesFrom arity front (commas (last.map fun value => [.literal value]) ++
      .symbol .rightParen :: (others.map tupleTokens).flatMap (.symbol .comma :: ·) ++ rest) =
      .ok ((front ++ last) :: others, rest) := by
  induction last generalizing front with
  | nil => exact absurd rfl hl
  | cons value more ih =>
    by_cases hm : more = []
    · subst hm
      rw [List.map_singleton, commas_singleton]
      exact tuplesFrom_close ha hr ho
    · have hi := @ih (front ++ [value]) hm (by simpa using ha)
      have hv : more.map (fun value => [Token.literal value]) ≠ [] := by simpa using hm
      simp only [List.map_cons, commas_cons hv, List.cons_append,
        List.nil_append, List.append_assoc] at hi ⊢
      rw [tuplesFrom_comma, hi]

/-- Tuples with as many values as are asked for are read from their tokens, up to where no
comma follows. -/
theorem tuples_tokens {arity : Option Nat} {list : List (List Value)} {rest : List Token}
    (hl : list ≠ []) (ha : ∀ tuple ∈ list, tuple ≠ [] ∧ ∀ n, arity = some n → tuple.length = n)
    (hr : rest.head? ≠ some (.symbol .comma)) :
    tuples arity (commas (list.map tupleTokens) ++ rest) = .ok (list, rest) := by
  induction list with
  | nil => exact absurd rfl hl
  | cons tuple others ih =>
    obtain ⟨⟨ht, hn⟩, hos⟩ := List.forall_mem_cons.mp ha
    have hf := tuplesFrom_tokens ht (List.nil_append tuple ▸ hn) hr fun ho => ih ho hos
    rw [List.map_cons, commas_eq_flatMap, tupleTokens, parenthesized, tuples]
    simp only [List.cons_append, List.nil_append, List.append_assoc] at hf ⊢
    rw [symbol, token_self, ok_bind, hf]

/-- The fields of an INSERT are read from their tokens; if there are none, no parenthesis may
follow. -/
theorem insertFields_listedTokens {choice : Fields} {rest : List Token} (hc : choice.Chosen)
    (hr : rest.head? ≠ some (.symbol .leftParen)) :
    insertFields (listedTokens choice ++ rest) = .ok (choice, rest) := by
  cases choice with
  | all =>
    rw [listedTokens, List.nil_append, insertFields]
    rintro more rfl
    exact hr rfl
  | named list =>
    have hl : list ≠ [] := fun he => hc (by rw [he])
    have hn : names (nameTokens list ++ .symbol .rightParen :: rest) =
        .ok (list, .symbol .rightParen :: rest) := names_nameTokens hl (by simp)
    rw [nameTokens] at hn
    simp only [listedTokens, parenthesized, List.cons_append, List.nil_append, List.append_assoc]
    rw [insertFields, hn, ok_bind]
    simp only [symbol, token_self, ok_bind]

/-- IF NOT EXISTS, or its absence, is read in front of a name. -/
theorem ifNotExists_tokens (flag : Bool) (name : String) (rest : List Token) :
    ifNotExists (ifNotExistsTokens flag ++ .identifier name :: rest) =
      .ok (flag, .identifier name :: rest) := by
  cases flag with
  | false => rfl
  | true => rfl

/-- IF EXISTS, or its absence, is read in front of a name. -/
theorem ifExists_tokens (flag : Bool) (name : String) (rest : List Token) :
    ifExists (ifExistsTokens flag ++ .identifier name :: rest) =
      .ok (flag, .identifier name :: rest) := by
  cases flag with
  | false => rfl
  | true => rfl

/-- A clause that is not there, or the word that begins it, ends a list. -/
theorem head?_returningTokens (choice : Fields) :
    (returningTokens choice).head? = none ∨
      (returningTokens choice).head? = some (.keyword .returning) := by
  unfold returningTokens
  split
  · exact .inl rfl
  · exact .inr rfl

/-- The clauses behind the assignments begin with one of their words. -/
theorem head?_whereTokens_append (groups : Conditions) (rest : List Token) :
    (whereTokens groups ++ rest).head? = some (.keyword .where) ∨
      (whereTokens groups ++ rest).head? = rest.head? := by
  cases groups with
  | nil => exact .inr rfl
  | cons group others => exact .inl rfl

/-- The condition is read when a list of wanted columns or nothing follows. -/
theorem whereClause_returning {groups : Conditions} (hw : Conditions.WellFormed groups)
    (choice : Fields) :
    whereClause (whereTokens groups ++ returningTokens choice) =
      .ok (groups, returningTokens choice) := by
  rcases head?_returningTokens choice with hn | hs
  · exact whereClause_whereTokens hw (by simp [hn]) (by simp [hn]) (by simp [hn])
  · exact whereClause_whereTokens hw (by simp [hs]) (by simp [hs]) (by simp [hs])

/-- A statement that can be written is read back from its tokens. -/
theorem statement_tokens {s : Statement} (h : s.WellFormed) :
    statement s.tokens = .ok (s, []) := by
  cases s with
  | select s =>
    let behind : List Token := .keyword .from :: .identifier s.table :: whereTokens s.conditions
    have hf : fields (s.fields.tokens ++ behind) = .ok (s.fields, behind) :=
      fields_tokens h.1 (by simp [behind])
    have hw : whereClause (whereTokens s.conditions ++ []) = .ok (s.conditions, []) :=
      whereClause_whereTokens h.2 (by simp) (by simp) (by simp)
    simp only [behind] at hf
    rw [List.append_nil] at hw
    simp only [Statement.tokens, List.cons_append, statement, select, hf, ok_bind, keyword,
      token_self, identifier, hw]
  | insert s =>
    -- The tuples end where no comma follows, and the columns to give back begin with none.
    have hr : (returningTokens s.returning).head? ≠ some (.symbol .comma) := by
      rcases head?_returningTokens s.returning with hn | hs
      · simp [hn]
      · simp [hs]
    let behind : List Token :=
      .keyword .values :: (commas (s.tuples.map tupleTokens) ++ returningTokens s.returning)
    have hf : insertFields (listedTokens s.fields ++ behind) = .ok (s.fields, behind) :=
      insertFields_listedTokens h.1 (by simp [behind])
    simp only [behind] at hf
    have ha : ∀ tuple ∈ s.tuples, tuple ≠ [] ∧
        ∀ n, arityOf s.fields = some n → tuple.length = n := by
      intro tuple hm
      refine ⟨(h.2.2 tuple hm).1, fun n hn => ?_⟩
      cases hc : s.fields with
      | all => simp [hc, arityOf] at hn
      | named names =>
        rw [hc, arityOf, Option.some.injEq] at hn
        exact hn ▸ (h.2.2 tuple hm).2 names hc
    have ht := tuples_tokens h.2.1 ha hr
    have hret := returning_returningTokens s.returning
    simp only [Statement.tokens, List.cons_append, List.append_assoc, statement, insert, keyword,
      token_self, ok_bind, identifier, hf, ht, hret]
  | update s =>
    have hr : (whereTokens s.conditions ++ returningTokens s.returning).head? ≠
        some (.symbol .comma) := by
      rcases head?_whereTokens_append s.conditions (returningTokens s.returning) with hw | he
      · simp [hw]
      · rcases head?_returningTokens s.returning with hn | hs
        · simp [he, hn]
        · simp [he, hs]
    have ha := assignments_tokens h.1 hr
    have hw := whereClause_returning h.2 s.returning
    have hret := returning_returningTokens s.returning
    simp only [Statement.tokens, List.cons_append, List.append_assoc, statement, update, keyword,
      token_self, ok_bind, identifier, ha, hw, hret]
  | delete s =>
    have hw := whereClause_returning h s.returning
    have hret := returning_returningTokens s.returning
    simp only [Statement.tokens, List.cons_append, statement, delete, keyword, token_self, ok_bind,
      identifier, hw, hret]
  | create s =>
    have hc : columns (commas (s.columns.map Column.tokens) ++ [.symbol .rightParen]) =
        .ok (s.columns, [.symbol .rightParen]) := columns_tokens h (by simp)
    simp only [Statement.tokens, List.cons_append, parenthesized, statement, create, keyword,
      token_self, ok_bind, ifNotExists_tokens, identifier, symbol, hc]
  | drop s =>
    simp only [Statement.tokens, List.cons_append, statement, drop, keyword, token_self, ok_bind,
      ifExists_tokens, identifier]

end Parser

/-- The parser accepts exactly the grammar, and no list of tokens can be read in
two ways. -/
theorem Statement.ofTokens_eq_ok_iff (tokens : List Token) (s : Statement) :
    Statement.ofTokens tokens = .ok s ↔ tokens = s.tokens ∧ s.WellFormed := by
  rw [Statement.ofTokens, mapError_eq_ok_iff]
  constructor
  · intro h
    obtain ⟨hw, ht⟩ := Parser.eq_of_whole h
    exact ⟨ht, hw⟩
  · rintro ⟨rfl, hw⟩
    rw [Parser.whole, Parser.statement_tokens hw, ok_bind]

end EmbeddedSql.Sql
