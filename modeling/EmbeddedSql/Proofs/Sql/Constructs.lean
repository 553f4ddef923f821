import EmbeddedSql.Proofs.Sql.Lookahead

/-!
# The constructs are read with one token of lookahead

The reader of every construct is predictive, and its language is what the construct is written
as. A list with commas is dealt with once, for entries of any kind; the readers of lists only have
to be seen to be lists of their entries. Tuples are read here without a look at how many values
they have.
-/

namespace EmbeddedSql.Sql.Parser

open Result

/-- What the entries of some kind are written as. -/
def writings {α : Type} (P : α → Prop) (write : α → List Token) : Language Token :=
  {tokens | ∃ a, P a ∧ write a = tokens}

variable {α : Type}

/-! ## Names, literals, operators and types -/

/-- The name that a token is. -/
def identifierOf? : Token → Option String
  | .identifier name => some name
  | _ => none

/-- The value that a token is. -/
def literalOf? : Token → Option Value
  | .literal value => some value
  | _ => none

/-- The operator that a token is, if it compares. -/
def comparisonOf? : Token → Option Operator
  | .operator op => if op.isComparison then some op else none
  | _ => none

/-- The type that a token is. -/
def columnTypeOf? : Token → Option ColumnType
  | .columnType type => some type
  | _ => none

/-- Where the first token is not accepted, the reader of one token fails and names it, or the
end of the text. -/
theorem one_failure {expected : Expectation} {accept : Token → Option α} {tokens : List Token}
    (h : ∀ found rest, tokens = found :: rest → accept found = none) :
    one expected accept tokens = .error (failure expected tokens) := by
  cases tokens with
  | nil => rfl
  | cons found rest => rw [one, h found rest rfl]

/-- Without a literal in front no literal is read. -/
theorem literal_failure {tokens : List Token}
    (h : ∀ value rest, tokens = .literal value :: rest → False) :
    one .literal literalOf? tokens = .error (failure .literal tokens) :=
  one_failure fun found rest hr => by
    cases found with
    | literal value => exact absurd hr (h value rest)
    | _ => rfl

/-- Without an operator in front no comparison operator is read. -/
theorem comparison_failure {tokens : List Token}
    (h : ∀ op rest, tokens = .operator op :: rest → False) :
    one .comparison comparisonOf? tokens = .error (failure .comparison tokens) :=
  one_failure fun found rest hr => by
    cases found with
    | operator op => exact absurd hr (h op rest)
    | _ => rfl

/-- Without a column type in front none is read. -/
theorem columnType_failure {tokens : List Token}
    (h : ∀ type rest, tokens = .columnType type :: rest → False) :
    one .columnType columnTypeOf? tokens = .error (failure .columnType tokens) :=
  one_failure fun found rest hr => by
    cases found with
    | columnType type => exact absurd hr (h type rest)
    | _ => rfl

/-- Without a name in front none is read. -/
theorem identifier_failure {tokens : List Token}
    (h : ∀ name rest, tokens = .identifier name :: rest → False) :
    identifier tokens = .error (failure .identifier tokens) := by
  rw [identifier.eq_def]
  split
  next name rest => exact absurd rfl (h name rest)
  next => rfl

/-- Without the wanted token in front the reader of it fails. -/
theorem token_failure {wanted : Token} {expected : Expectation} {tokens : List Token}
    (h : ∀ rest, tokens = wanted :: rest → False) :
    token wanted expected tokens = .error (failure expected tokens) := by
  cases tokens with
  | nil => rfl
  | cons found rest => rw [token, if_neg fun hf => h rest (by rw [hf])]

/-- Names are read like all other single tokens, by what is accepted. -/
theorem identifier_eq_one : identifier = one .identifier identifierOf? := by
  funext tokens
  unfold identifier
  split
  · rfl
  next hn =>
    refine (one_failure fun found rest hr => ?_).symm
    cases found with
    | identifier name => exact absurd hr (hn name rest)
    | _ => rfl

/-- A name is read with one token of lookahead. -/
theorem predictive_identifier :
    Predictive identifier (writings (fun _ => True) fun name => [.identifier name]) := by
  rw [identifier_eq_one]
  refine (predictive_one (rfl : identifierOf? (.identifier "") = some "")).mono ?_
  rintro _ ⟨found, name, hn, rfl⟩
  cases found <;> cases hn
  exact ⟨name, trivial, rfl⟩

/-- A literal is read with one token of lookahead. -/
theorem predictive_literal : Predictive (one .literal literalOf?)
    (writings (fun _ => True) fun value => [.literal value]) := by
  refine (predictive_one (rfl : literalOf? (.literal .null) = some .null)).mono ?_
  rintro _ ⟨found, value, hv, rfl⟩
  cases found <;> cases hv
  exact ⟨value, trivial, rfl⟩

/-- A comparison operator is read with one token of lookahead; no other operator is one of its
writings. -/
theorem predictive_comparison : Predictive (one .comparison comparisonOf?)
    (writings (· ∈ Operator.comparisons) fun op => [.operator op]) := by
  refine (predictive_one (rfl : comparisonOf? (.operator .equal) = some .equal)).mono ?_
  rintro _ ⟨found, op, ho, rfl⟩
  cases found with
  | operator op' =>
    obtain ⟨hop, he⟩ := Option.ite_none_right_eq_some.mp ho
    cases he
    exact ⟨op, isComparison_iff.mp hop, rfl⟩
  | _ => cases ho

/-- A column type is read with one token of lookahead. -/
theorem predictive_columnType : Predictive (one .columnType columnTypeOf?)
    (writings (fun _ => True) fun type => [.columnType type]) := by
  refine (predictive_one (rfl : columnTypeOf? (.columnType .text) = some .text)).mono ?_
  rintro _ ⟨found, type, ht, rfl⟩
  cases found <;> cases ht
  exact ⟨type, trivial, rfl⟩

/-! ## Lists with commas -/

/-- A comma goes on with a list. -/
def byComma : Token → Option (α → List α → List α)
  | .symbol .comma => some List.cons
  | _ => none

/-- A list with commas is read with one token of lookahead if its entries are: behind an entry
only a comma makes it go on. The list has entries, and all of them are such that the reader of
entries reads. -/
theorem predictive_commas {item : Reader α} {p : Reader (List α)} {P : α → Prop}
    {write : α → List Token} (hitem : Predictive item (writings P write))
    (hp : ∀ tokens, p tokens = do
      let (a, rest) ← item tokens
      goOn p (fun a => [a]) byComma a rest) :
    Predictive p (writings (fun list => list ≠ [] ∧ ∀ a ∈ list, P a) fun list =>
      commas (list.map write)) := by
  refine hitem.list hp ?_ ?_
  · rintro _ ⟨a, ha, rfl⟩
    exact ⟨[a], ⟨List.cons_ne_nil _ _, List.forall_mem_singleton.mpr ha⟩, commas_singleton _⟩
  · rintro _ ⟨a, ha, rfl⟩ token ht _ ⟨list, ⟨hl, hP⟩, rfl⟩
    obtain rfl : token = .symbol .comma := by
      unfold byComma at ht
      split at ht
      · rfl
      · cases ht
    refine ⟨a :: list, ⟨List.cons_ne_nil _ _, List.forall_mem_cons.mpr ⟨ha, hP⟩⟩, ?_⟩
    exact commas_cons (by simpa using hl) (write a)

/-- Without a comma the list ends. -/
theorem goOn_byComma {p : Reader (List α)} {a : α} {tokens : List Token}
    (h : ∀ rest, tokens = .symbol .comma :: rest → False) :
    goOn p (fun a => [a]) byComma a tokens = .ok ([a], tokens) := by
  cases tokens with
  | nil => rfl
  | cons found rest =>
    have hf : byComma (α := α) found = none := by
      unfold byComma
      split
      · exact absurd rfl (h rest)
      · rfl
    rw [goOn, hf]

/-- A list of names is a list with commas. -/
theorem names_eq (tokens : List Token) :
    names tokens = (do
      let (name, rest) ← identifier tokens
      goOn names (fun name => [name]) byComma name rest) := by
  rw [names.eq_def]
  split
  · rfl
  next hn => exact (goOn_byComma fun rest hr => hn rest hr).symm
  next hn => rw [identifier_failure hn]; rfl

/-- A list of names is read with one token of lookahead. -/
theorem predictive_names : Predictive names (writings (· ≠ []) nameTokens) :=
  (predictive_commas predictive_identifier names_eq).mono
    fun _ ⟨list, ⟨hl, _⟩, hw⟩ => ⟨list, hl, hw⟩

/-- An asterisk or a list of names is read with one token of lookahead. -/
theorem predictive_fields : Predictive fields (writings Fields.Chosen Fields.tokens) := by
  have hchoice : Predictive fields ({[.operator .star]} * 1 + writings (· ≠ []) nameTokens) := by
    refine (predictive_ok .all).choice (predictive_names.map .named) (fun rest => rfl)
      fun tokens ht => ?_
    rw [fields.eq_def]
    split
    · exact absurd rfl ht
    · rfl
  refine hchoice.mono ?_
  rintro _ (⟨_, rfl, _, rfl, rfl⟩ | ⟨list, hl, rfl⟩)
  · exact ⟨.all, by simp [Fields.Chosen], rfl⟩
  · exact ⟨.named list, by simpa [Fields.Chosen] using hl, rfl⟩

/-- A RETURNING clause, or its absence, is read with one token of lookahead. -/
theorem predictive_returning : Predictive returning (writings (fun _ => True) returningTokens) := by
  have hchoice : Predictive returning
      ({[.keyword .returning]} * writings Fields.Chosen Fields.tokens + 1) := by
    refine predictive_fields.choice (predictive_ok .empty) (fun rest => rfl) fun tokens ht => ?_
    rw [returning.eq_def]
    split
    · exact absurd rfl ht
    · rfl
  refine hchoice.mono ?_
  rintro _ (⟨_, rfl, _, ⟨choice, hc, rfl⟩, rfl⟩ | rfl)
  · refine ⟨choice, trivial, ?_⟩
    unfold returningTokens
    split
    · exact absurd rfl hc
    · rfl
  · exact ⟨.empty, trivial, rfl⟩

/-! ## Conditions -/

/-- Reads a comparison. -/
def comparison (tokens : List Token) : Except Failure (Condition × List Token) := do
  let (field, rest) ← identifier tokens
  let (op, rest) ← one .comparison comparisonOf? rest
  let (value, rest) ← one .literal literalOf? rest
  .ok (⟨field, op, value⟩, rest)

instance : Nonempty Operator := ⟨.equal⟩

/-- A single condition is read with one token of lookahead. -/
theorem predictive_condition : Predictive comparison
    (writings (·.operator ∈ Operator.comparisons) Condition.tokens) := by
  have hall : Predictive comparison _ :=
    predictive_identifier.bind fun field => predictive_comparison.bind fun op =>
      predictive_literal.map (Condition.mk field op)
  refine hall.mono ?_
  rintro _ ⟨_, ⟨field, _, rfl⟩, _, ⟨_, ⟨op, hop, rfl⟩, _, ⟨value, _, rfl⟩, rfl⟩, rfl⟩
  exact ⟨⟨field, op, value⟩, hop, rfl⟩

/-- AND keeps a comparison in the group behind it and OR begins a new one. -/
def byWord : Token → Option (Condition → Conditions → Conditions)
  | .keyword .and => some conjoin
  | .keyword .or => some fun c groups => [c] :: groups
  | _ => none

/-- Without one of the words the condition ends. -/
theorem goOn_byWord {p : Reader Conditions} {c : Condition} {tokens : List Token}
    (ha : ∀ rest, tokens = .keyword .and :: rest → False)
    (ho : ∀ rest, tokens = .keyword .or :: rest → False) :
    goOn p (fun c => [[c]]) byWord c tokens = .ok ([[c]], tokens) := by
  cases tokens with
  | nil => rfl
  | cons found rest =>
    have hf : byWord found = none := by
      unfold byWord
      split
      · exact absurd rfl (ha rest)
      · exact absurd rfl (ho rest)
      · rfl
    rw [goOn, hf]

/-- An operator is read as a comparison operator exactly if it is one. -/
theorem one_comparison (op : Operator) (rest : List Token) :
    one .comparison comparisonOf? (.operator op :: rest) =
      if op.isComparison then .ok (op, rest)
      else .error (failure .comparison (.operator op :: rest)) := by
  cases op <;> rfl

/-- Conditions are a list whose entries are joined by AND or OR. -/
theorem conditions_eq (tokens : List Token) :
    conditions tokens = (do
      let (c, rest) ← comparison tokens
      goOn conditions (fun c => [[c]]) byWord c rest) := by
  -- The parser looks at three tokens at once; each of its cases is what reading them one after
  -- another comes to.
  rw [conditions.eq_def]
  split
  next field op value rest =>
    have hc : comparison (.identifier field :: .operator op :: .literal value :: rest) =
        if op.isComparison then .ok (⟨field, op, value⟩, rest)
        else .error (failure .comparison (.operator op :: .literal value :: rest)) := by
      simp only [comparison, identifier, ok_bind, one_comparison]
      cases op.isComparison <;> rfl
    rw [hc]
    split
    · split
      · rfl
      · rfl
      next ha ho => exact (goOn_byWord ha ho).symm
    · rfl
  next field op rest hl =>
    have hc : comparison (.identifier field :: .operator op :: rest) =
        if op.isComparison then .error (failure .literal rest)
        else .error (failure .comparison (.operator op :: rest)) := by
      simp only [comparison, identifier, ok_bind, one_comparison]
      cases op.isComparison
      · rfl
      · simp only [if_true, ok_bind, literal_failure hl]
        rfl
    rw [hc]
    split <;> rfl
  next field rest _ ho =>
    have hc : comparison (.identifier field :: rest) = .error (failure .comparison rest) := by
      simp only [comparison, identifier, ok_bind, comparison_failure ho]
      rfl
    rw [hc]
    rfl
  next hn =>
    have hc : comparison tokens = .error (failure .identifier tokens) := by
      rw [comparison, identifier_failure hn]
      rfl
    rw [hc]
    rfl

/-- Conditions are read with one token of lookahead, as groups that are not empty and hold
comparisons only. -/
theorem predictive_conditions : Predictive conditions
    (writings (fun groups => groups ≠ [] ∧ Conditions.WellFormed groups) conditionTokens) := by
  refine predictive_condition.list conditions_eq ?_ ?_
  · rintro _ ⟨c, hc, rfl⟩
    have hg : Conditions.WellFormed [[c]] := List.forall_mem_singleton.mpr
      ⟨List.cons_ne_nil _ _, List.forall_mem_singleton.mpr hc⟩
    exact ⟨[[c]], ⟨List.cons_ne_nil _ _, hg⟩, by
      rw [conditionTokens_singleton, groupTokens_singleton]⟩
  · rintro _ ⟨c, hc, rfl⟩ token ht _ ⟨groups, ⟨hne, hw⟩, rfl⟩
    unfold byWord at ht
    split at ht
    · obtain ⟨group, groups, rfl⟩ := List.exists_cons_of_ne_nil hne
      obtain ⟨⟨hg, hgs⟩, hrest⟩ := List.forall_mem_cons.mp hw
      refine ⟨(c :: group) :: groups, ⟨List.cons_ne_nil _ _, ?_⟩,
        conditionTokens_conjoin hg c groups⟩
      exact List.forall_mem_cons.mpr
        ⟨⟨List.cons_ne_nil _ _, List.forall_mem_cons.mpr ⟨hc, hgs⟩⟩, hrest⟩
    · refine ⟨[c] :: groups, ⟨List.cons_ne_nil _ _, ?_⟩, ?_⟩
      · exact List.forall_mem_cons.mpr
          ⟨⟨List.cons_ne_nil _ _, List.forall_mem_singleton.mpr hc⟩, hw⟩
      · rw [conditionTokens_cons hne, groupTokens_singleton]
    · cases ht

/-- A WHERE clause, or its absence, is read with one token of lookahead. -/
theorem predictive_whereClause :
    Predictive whereClause (writings Conditions.WellFormed whereTokens) := by
  have hchoice : Predictive whereClause ({[.keyword .where]} *
      writings (fun groups => groups ≠ [] ∧ Conditions.WellFormed groups) conditionTokens + 1) := by
    refine predictive_conditions.choice (predictive_ok []) (fun rest => rfl) fun tokens ht => ?_
    rw [whereClause.eq_def]
    split
    · exact absurd rfl ht
    · rfl
  refine hchoice.mono ?_
  rintro _ (⟨_, rfl, _, ⟨groups, ⟨hne, hw⟩, rfl⟩, rfl⟩ | rfl)
  · obtain ⟨group, groups, rfl⟩ := List.exists_cons_of_ne_nil hne
    exact ⟨group :: groups, hw, rfl⟩
  · exact ⟨[], List.forall_mem_nil _, rfl⟩

/-! ## Assignments and columns -/

/-- Reads an assignment. -/
def assignment (tokens : List Token) : Except Failure (Assignment × List Token) := do
  let (field, rest) ← identifier tokens
  let rest ← token (.operator .equal) .equalsSign rest
  let (value, rest) ← one .literal literalOf? rest
  .ok (⟨field, value⟩, rest)

/-- An assignment is read with one token of lookahead. -/
theorem predictive_assignment :
    Predictive assignment (writings (fun _ => True) Assignment.tokens) := by
  have hall : Predictive assignment _ := predictive_identifier.bind fun field =>
    (predictive_literal.map (Assignment.mk field)).token
  refine hall.mono ?_
  rintro _ ⟨_, ⟨field, _, rfl⟩, _, ⟨_, rfl, _, ⟨value, _, rfl⟩, rfl⟩, rfl⟩
  exact ⟨⟨field, value⟩, trivial, rfl⟩

/-- The assignments of an UPDATE are a list with commas. -/
theorem assignments_eq (tokens : List Token) :
    assignments tokens = (do
      let (a, rest) ← assignment tokens
      goOn assignments (fun a => [a]) byComma a rest) := by
  rw [assignments.eq_def]
  split
  · rfl
  next hn => exact (goOn_byComma fun rest hr => hn rest hr).symm
  next field rest h1 h2 =>
    have ha : assignment (.identifier field :: .operator .equal :: rest) =
        .error (failure .literal rest) := by
      simp only [assignment, identifier, ok_bind, token_self, literal_failure h2]
      rfl
    rw [ha]
    rfl
  next field rest _ _ he =>
    have ha : assignment (.identifier field :: rest) = .error (failure .equalsSign rest) := by
      simp only [assignment, identifier, ok_bind, token_failure he]
      rfl
    rw [ha]
    rfl
  next hn =>
    rw [assignment, identifier_failure hn]
    rfl

/-- A list of assignments is read with one token of lookahead. -/
theorem predictive_assignments : Predictive assignments
    (writings (· ≠ []) fun list => commas (list.map Assignment.tokens)) :=
  (predictive_commas predictive_assignment assignments_eq).mono
    fun _ ⟨list, ⟨hl, _⟩, hw⟩ => ⟨list, hl, hw⟩

/-- Reads the column of a new table. -/
def column (tokens : List Token) : Except Failure (Column × List Token) := do
  let (name, rest) ← identifier tokens
  let (type, rest) ← one .columnType columnTypeOf? rest
  .ok (⟨name, type⟩, rest)

/-- A column with its type is read with one token of lookahead. -/
theorem predictive_column : Predictive column (writings (fun _ => True) Column.tokens) := by
  have hall : Predictive column _ := predictive_identifier.bind fun name =>
    predictive_columnType.map (Column.mk name)
  refine hall.mono ?_
  rintro _ ⟨_, ⟨name, _, rfl⟩, _, ⟨type, _, rfl⟩, rfl⟩
  exact ⟨⟨name, type⟩, trivial, rfl⟩

/-- The columns of a CREATE TABLE are a list with commas. -/
theorem columns_eq (tokens : List Token) :
    columns tokens = (do
      let (c, rest) ← column tokens
      goOn columns (fun c => [c]) byComma c rest) := by
  rw [columns.eq_def]
  split
  · rfl
  next hn => exact (goOn_byComma fun rest hr => hn rest hr).symm
  next name rest _ ht =>
    have hc : column (.identifier name :: rest) = .error (failure .columnType rest) := by
      simp only [column, identifier, ok_bind, columnType_failure ht]
      rfl
    rw [hc]
    rfl
  next hn =>
    rw [column, identifier_failure hn]
    rfl

/-- A list of columns is read with one token of lookahead. -/
theorem predictive_columns : Predictive columns
    (writings (· ≠ []) fun list => commas (list.map Column.tokens)) :=
  (predictive_commas predictive_column columns_eq).mono
    fun _ ⟨list, ⟨hl, _⟩, hw⟩ => ⟨list, hl, hw⟩

/-! ## Tuples -/

/-- Reads one or more literals with commas between them. -/
def values : List Token → Except Failure (List Value × List Token)
  | .literal value :: .symbol .comma :: rest => do
    let (others, rest) ← values rest
    .ok (value :: others, rest)
  | .literal value :: rest => .ok ([value], rest)
  | tokens => .error (failure .literal tokens)

/-- The values of a tuple are a list with commas. -/
theorem values_eq (tokens : List Token) :
    values tokens = (do
      let (value, rest) ← one .literal literalOf? tokens
      goOn values (fun value => [value]) byComma value rest) := by
  rw [values.eq_def]
  split
  · rfl
  next hn => exact (goOn_byComma fun rest hr => hn rest hr).symm
  next hn => rw [literal_failure hn]; rfl

/-- Reads a tuple, whatever the number of its values. -/
def tuple (tokens : List Token) : Except Failure (List Value × List Token) := do
  let rest ← symbol .leftParen tokens
  let (list, rest) ← values rest
  let rest ← symbol .rightParen rest
  .ok (list, rest)

/-- A tuple in parentheses is read with one token of lookahead, whatever the number of its
values. -/
theorem predictive_tuple : Predictive tuple (writings (· ≠ []) tupleTokens) := by
  have hall : Predictive tuple _ :=
    ((predictive_commas predictive_literal values_eq).bind fun list =>
      (predictive_ok list).token).token
  refine hall.mono ?_
  rintro _ ⟨_, rfl, _, ⟨_, ⟨list, ⟨hl, _⟩, rfl⟩, _, ⟨_, rfl, _, rfl, rfl⟩, rfl⟩, rfl⟩
  exact ⟨list, hl, rfl⟩

/-- The reader of a symbol takes the symbol away. -/
theorem symbol_self (s : Symbol) (rest : List Token) : symbol s (.symbol s :: rest) = .ok rest :=
  token_self _ _ rest

/-- Reading on in a tuple is reading its other values and then what is behind the tuple. -/
theorem tuplesFrom_none (front : List Value) (tokens : List Token) :
    tuplesFrom none front tokens = (do
      let (last, rest) ← values tokens
      let rest ← symbol .rightParen rest
      goOn (tuples none) (fun t => [t]) byComma (front ++ last) rest) := by
  -- By induction along the reading: a comma leads to another value, and a parenthesis ends the
  -- tuple.
  fun_induction tuplesFrom none front tokens with
  | case1 front value rest ih =>
    rw [ih, values]
    cases values rest with
    | error f => rfl
    | ok read => simp only [ok_bind, List.append_assoc, List.singleton_append]
  | case2 front value t count hc =>
    rename_i more _
    have hopen : tuples none (.symbol .leftParen :: more) = tuplesFrom none [] more := by
      rw [tuples, symbol_self, ok_bind]
    simp only [values, ok_bind, symbol_self, goOn, byComma, hopen]
    rfl
  | case3 front value t count hc more hp =>
    have hopen : tuples none more = .error (failure (.symbol .leftParen) more) := by
      rw [tuples, symbol, token_failure hp]
      rfl
    simp only [values, ok_bind, symbol_self, goOn, byComma, hopen]
    rfl
  | case4 front value t count hc rest _ hn =>
    simp only [values, ok_bind, symbol_self]
    exact (goOn_byComma hn).symm
  | case5 front value rest t count hc => exact absurd rfl hc
  | case6 front value rest hn hp =>
    have hclose : symbol .rightParen rest = .error (failure (.symbol .rightParen) rest) :=
      token_failure hp
    rw [values, ok_bind]
    · simp only [hclose]
      rfl
    · exact hn
  | case7 front tokens _ _ hv =>
    rw [values_eq, literal_failure hv]
    rfl

/-- Tuples whose number of values is not looked at are a list with commas. -/
theorem tuples_eq (tokens : List Token) :
    tuples none tokens = (do
      let (t, rest) ← tuple tokens
      goOn (tuples none) (fun t => [t]) byComma t rest) := by
  simp only [tuples, tuple, tuplesFrom_none, bind_assoc]
  rfl

/-- A list of such tuples is read with one token of lookahead. -/
theorem predictive_tuples : Predictive (tuples none)
    (writings (fun list => list ≠ [] ∧ ∀ t ∈ list, t ≠ []) fun list =>
      commas (list.map tupleTokens)) :=
  predictive_commas predictive_tuple tuples_eq

/-! ## Clauses of single statements -/

/-- The fields of an INSERT in parentheses, or their absence, are read with one token of
lookahead. -/
theorem predictive_insertFields :
    Predictive insertFields (writings Fields.Chosen listedTokens) := by
  have hchoice : Predictive insertFields ({[.symbol .leftParen]} *
      (writings (· ≠ []) nameTokens * ({[.symbol .rightParen]} * 1)) + 1) := by
    refine (predictive_names.bind fun list => (predictive_ok (.named list)).token).choice
      (predictive_ok .all) (fun rest => rfl) fun tokens ht => ?_
    rw [insertFields.eq_def]
    split
    · exact absurd rfl ht
    · rfl
  refine hchoice.mono ?_
  rintro _ (⟨_, rfl, _, ⟨_, ⟨list, hl, rfl⟩, _, ⟨_, rfl, _, rfl, rfl⟩, rfl⟩, rfl⟩ | rfl)
  · exact ⟨.named list, by simpa [Fields.Chosen] using hl, rfl⟩
  · exact ⟨.all, by simp [Fields.Chosen], rfl⟩

/-- IF NOT EXISTS, or its absence, is read with one token of lookahead. -/
theorem predictive_ifNotExists :
    Predictive ifNotExists (writings (fun _ => True) ifNotExistsTokens) := by
  have hchoice : Predictive ifNotExists
      ({[.keyword .if]} * ({[.keyword .not]} * ({[.keyword .exists]} * 1)) + 1) := by
    refine (((predictive_ok true).token).token).choice (predictive_ok false) (fun rest => rfl)
      fun tokens ht => ?_
    rw [ifNotExists.eq_def]
    split
    · exact absurd rfl ht
    · rfl
  refine hchoice.mono ?_
  rintro _ (⟨_, rfl, _, ⟨_, rfl, _, ⟨_, rfl, _, rfl, rfl⟩, rfl⟩, rfl⟩ | rfl)
  · exact ⟨true, trivial, rfl⟩
  · exact ⟨false, trivial, rfl⟩

/-- IF EXISTS, or its absence, is read with one token of lookahead. -/
theorem predictive_ifExists :
    Predictive ifExists (writings (fun _ => True) ifExistsTokens) := by
  have hchoice : Predictive ifExists ({[.keyword .if]} * ({[.keyword .exists]} * 1) + 1) := by
    refine ((predictive_ok true).token).choice (predictive_ok false) (fun rest => rfl)
      fun tokens ht => ?_
    rw [ifExists.eq_def]
    split
    · exact absurd rfl ht
    · rfl
  refine hchoice.mono ?_
  rintro _ (⟨_, rfl, _, ⟨_, rfl, _, rfl, rfl⟩, rfl⟩ | rfl)
  · exact ⟨true, trivial, rfl⟩
  · exact ⟨false, trivial, rfl⟩

end EmbeddedSql.Sql.Parser
