import EmbeddedSql.Proofs.Sql.Constructs

/-!
# Where a syntax error is

A syntax error is at the first token with which no statement can go on. The sentences are what the
six kinds of statements are written as, whatever the number of values in the tuples of an
insertion, and tokens are viable if a sentence begins with them. Apart from the count of values a
statement is read with one token of lookahead, so the reader stops behind viable tokens, and it
would stop there as well if anything else stood behind the token it stops at; what is written as a
statement is read to its end. The count is no matter of grammar: it is refused at the first tuple
that has another number of values than columns are listed.
-/

namespace EmbeddedSql.Sql

open Result

/-- What a statement must be like to be written if the values of a tuple are not counted. -/
def Statement.Grammatical : Statement → Prop
  | .insert s => s.fields.Chosen ∧ s.tuples ≠ [] ∧ ∀ tuple ∈ s.tuples, tuple ≠ []
  | s => s.WellFormed

namespace Parser

/-- What the statements are written as. -/
def sentences : Language Token :=
  writings Statement.Grammatical Statement.tokens

/-- A sentence begins with the tokens. -/
def Viable (tokens : List Token) : Prop :=
  ∃ sentence ∈ sentences, tokens <+: sentence

/-- The tokens begin with an insertion up to a tuple, the first one that has another number of
values than columns are listed. -/
def Miscounted (tokens rest : List Token) (fields values : Nat) : Prop :=
  ∃ table names before tuple,
    Statement.Grammatical (.insert ⟨table, .named names, before ++ [tuple], .empty⟩) ∧
    tokens = Statement.tokens (.insert ⟨table, .named names, before ++ [tuple], .empty⟩) ++ rest ∧
    (∀ t ∈ before, t.length = names.length) ∧ tuple.length ≠ names.length ∧
    fields = names.length ∧ values = tuple.length

/-! ## Statements with tuples of any number of values -/

/-- Reads the rest of a statement that adds rows and does not count the values. -/
def insertUncounted (tokens : List Token) : Except Failure (Statement × List Token) := do
  let rest ← keyword .into tokens
  let (table, rest) ← identifier rest
  let (fields, rest) ← insertFields rest
  let rest ← keyword .values rest
  let (tuples, rest) ← tuples none rest
  let (wanted, rest) ← returning rest
  .ok (.insert ⟨table, fields, tuples, wanted⟩, rest)

/-- Reads a statement and does not count the values in the tuples of an insertion. -/
def statementUncounted : List Token → Except Failure (Statement × List Token)
  | .keyword .insert :: rest => insertUncounted rest
  | tokens => statement tokens

/-- What can stand behind the first word of a statement. -/
def behindWord (k : Keyword) : Language Token :=
  {tokens | .keyword k :: tokens ∈ sentences}

instance : Nonempty Fields := ⟨.all⟩

/-- Behind its first word a SELECT is read with one token of lookahead. -/
theorem predictive_select : Predictive select (behindWord .select) := by
  have hall : Predictive select _ := predictive_fields.bind fun fields =>
    (predictive_identifier.bind fun table =>
      predictive_whereClause.map fun groups => Statement.select ⟨table, fields, groups⟩).token
  refine hall.mono ?_
  rintro _ ⟨_, ⟨fields, hf, rfl⟩, _, ⟨_, rfl, _, ⟨_, ⟨table, _, rfl⟩, _, ⟨groups, hg, rfl⟩, rfl⟩,
    rfl⟩, rfl⟩
  exact ⟨.select ⟨table, fields, groups⟩, ⟨hf, hg⟩, rfl⟩

/-- Behind its first word an INSERT is read with one token of lookahead if values are not
counted. -/
theorem predictive_insert : Predictive insertUncounted (behindWord .insert) := by
  have hall : Predictive insertUncounted _ :=
    (predictive_identifier.bind fun table => predictive_insertFields.bind fun fields =>
      (predictive_tuples.bind fun tuples => predictive_returning.map fun wanted =>
        Statement.insert ⟨table, fields, tuples, wanted⟩).token).token
  refine hall.mono ?_
  rintro _ ⟨_, rfl, _, ⟨_, ⟨table, _, rfl⟩, _, ⟨_, ⟨fields, hf, rfl⟩, _, ⟨_, rfl, _,
    ⟨_, ⟨tuples, ht, rfl⟩, _, ⟨wanted, _, rfl⟩, rfl⟩, rfl⟩, rfl⟩, rfl⟩, rfl⟩
  refine ⟨.insert ⟨table, fields, tuples, wanted⟩, ⟨hf, ht⟩, ?_⟩
  simp [Statement.tokens]

/-- Behind its first word an UPDATE is read with one token of lookahead. -/
theorem predictive_update : Predictive update (behindWord .update) := by
  have hall : Predictive update _ := predictive_identifier.bind fun table =>
    (predictive_assignments.bind fun list => predictive_whereClause.bind fun groups =>
      predictive_returning.map fun wanted => Statement.update ⟨table, list, groups, wanted⟩).token
  refine hall.mono ?_
  rintro _ ⟨_, ⟨table, _, rfl⟩, _, ⟨_, rfl, _, ⟨_, ⟨list, hl, rfl⟩, _, ⟨_, ⟨groups, hg, rfl⟩, _,
    ⟨wanted, _, rfl⟩, rfl⟩, rfl⟩, rfl⟩, rfl⟩
  refine ⟨.update ⟨table, list, groups, wanted⟩, ⟨hl, hg⟩, ?_⟩
  simp [Statement.tokens]

/-- Behind its first word a DELETE is read with one token of lookahead. -/
theorem predictive_delete : Predictive delete (behindWord .delete) := by
  have hall : Predictive delete _ := (predictive_identifier.bind fun table =>
    predictive_whereClause.bind fun groups =>
      predictive_returning.map fun wanted => Statement.delete ⟨table, groups, wanted⟩).token
  refine hall.mono ?_
  rintro _ ⟨_, rfl, _, ⟨_, ⟨table, _, rfl⟩, _, ⟨_, ⟨groups, hg, rfl⟩, _, ⟨wanted, _, rfl⟩, rfl⟩,
    rfl⟩, rfl⟩
  exact ⟨.delete ⟨table, groups, wanted⟩, hg, rfl⟩

/-- Behind its first word a CREATE TABLE is read with one token of lookahead. -/
theorem predictive_create : Predictive create (behindWord .create) := by
  have hall : Predictive create _ := (predictive_ifNotExists.bind fun flag =>
    predictive_identifier.bind fun table => (predictive_columns.bind fun list =>
      (predictive_ok (Statement.create ⟨table, flag, list⟩)).token).token).token
  refine hall.mono ?_
  rintro _ ⟨_, rfl, _, ⟨_, ⟨flag, _, rfl⟩, _, ⟨_, ⟨table, _, rfl⟩, _, ⟨_, rfl, _,
    ⟨_, ⟨list, hl, rfl⟩, _, ⟨_, rfl, _, rfl, rfl⟩, rfl⟩, rfl⟩, rfl⟩, rfl⟩, rfl⟩
  exact ⟨.create ⟨table, flag, list⟩, hl, rfl⟩

/-- Behind its first word a DROP TABLE is read with one token of lookahead. -/
theorem predictive_drop : Predictive drop (behindWord .drop) := by
  have hall : Predictive drop _ := (predictive_ifExists.bind fun flag =>
    predictive_identifier.map fun table => Statement.drop ⟨table, flag⟩).token
  refine hall.mono ?_
  rintro _ ⟨_, rfl, _, ⟨_, ⟨flag, _, rfl⟩, _, ⟨table, _, rfl⟩, rfl⟩, rfl⟩
  exact ⟨.drop ⟨table, flag⟩, trivial, rfl⟩

/-- A statement is read with one token of lookahead if the values are not counted. -/
theorem reads_statementUncounted {tokens : List Token} (hne : tokens ≠ []) :
    Reads statementUncounted sentences tokens := by
  obtain ⟨first, rest, rfl⟩ := List.exists_cons_of_ne_nil hne
  have hw : Statement.tokens (.drop ⟨"", false⟩) ∈ sentences :=
    ⟨.drop ⟨"", false⟩, trivial, rfl⟩
  cases first with
  | keyword k =>
    cases k with
    | select => exact (predictive_select rest).cons (fun _ => rfl) fun _ => id
    | insert => exact (predictive_insert rest).cons (fun _ => rfl) fun _ => id
    | update => exact (predictive_update rest).cons (fun _ => rfl) fun _ => id
    | delete => exact (predictive_delete rest).cons (fun _ => rfl) fun _ => id
    | create => exact (predictive_create rest).cons (fun _ => rfl) fun _ => id
    | drop => exact (predictive_drop rest).cons (fun _ => rfl) fun _ => id
    | _ => exact .stuck_cons .statement (fun _ => rfl) hw
  | _ => exact .stuck_cons .statement (fun _ => rfl) hw

/-- What is written as a statement is read to its end if the values are not counted. -/
theorem statementUncounted_tokens {s : Statement} (h : s.Grammatical) :
    statementUncounted s.tokens = .ok (s, []) := by
  cases s with
  | insert s =>
    have hr : (returningTokens s.returning).head? ≠ some (.symbol .comma) := by
      rcases head?_returningTokens s.returning with hn | hs
      · simp [hn]
      · simp [hs]
    let behind : List Token :=
      .keyword .values :: (commas (s.tuples.map tupleTokens) ++ returningTokens s.returning)
    have hf : insertFields (listedTokens s.fields ++ behind) = .ok (s.fields, behind) :=
      insertFields_listedTokens h.1 (by simp [behind])
    simp only [behind] at hf
    have hn : ∀ t ∈ s.tuples, t ≠ [] ∧ ∀ n, none = some n → t.length = n :=
      fun t hm => ⟨h.2.2 t hm, by simp⟩
    have ht := tuples_tokens h.2.1 hn hr
    have hret := returning_returningTokens s.returning
    simp only [Statement.tokens, List.cons_append, List.append_assoc, statementUncounted,
      insertUncounted, keyword, token_self, ok_bind, identifier, hf, ht, hret]
  | select s => exact statement_tokens (s := .select s) h
  | update s => exact statement_tokens (s := .update s) h
  | delete s => exact statement_tokens (s := .delete s) h
  | create s => exact statement_tokens (s := .create s) h
  | drop s => exact statement_tokens (s := .drop s) h

/-! ## The count of values -/

/-- The last of the tuples is the first one that has not as many values as asked for, and the
failure says so. -/
def Refused (n : Nat) (list : List (List Value)) (error : SyntaxError) : Prop :=
  ∃ before tuple, list = before ++ [tuple] ∧ (∀ t ∈ before, t.length = n) ∧ tuple.length ≠ n ∧
    error = .arityMismatch n tuple.length

/-- Tuples are read as if the values were not counted, or up to the first one that is refused. -/
theorem tuplesFrom_counted (n : Nat) (front : List Value) (tokens : List Token) :
    tuplesFrom (some n) front tokens = tuplesFrom none front tokens ∨
    ∃ last others e rest, tuplesFrom (some n) front tokens = .error ⟨e, rest⟩ ∧
      Refused n ((front ++ last) :: others) e ∧ last ≠ [] ∧ (∀ t ∈ others, t ≠ []) ∧
      tokens = commas (last.map fun value => [.literal value]) ++ .symbol .rightParen ::
        (others.map tupleTokens).flatMap (.symbol .comma :: ·) ++ rest := by
  -- By induction along the reading with the count: it differs from the one without only where
  -- a tuple is closed with a wrong number of values.
  fun_induction tuplesFrom (some n) front tokens with
  | case1 front value rest ih =>
    rcases ih with he | ⟨last, others, e, behind, he, hr, hl, ho, rfl⟩
    · exact .inl he
    · refine .inr ⟨value :: last, others, e, behind, he, ?_, List.cons_ne_nil _ _, ho, ?_⟩
      · simpa using hr
      · simp [commas_cons, hl]
  | case2 front value tuple count hc =>
    rename_i more ih
    rcases ih with he | ⟨last, others, e, behind, he, hr, hl, ho, rfl⟩
    · left
      rw [he, tuplesFrom]
      exact (if_pos rfl).symm
    · refine .inr ⟨[value], last :: others, e, behind, by rw [he]; rfl, ?_, List.cons_ne_nil _ _,
        List.forall_mem_cons.mpr ⟨hl, ho⟩, ?_⟩
      · obtain ⟨before, t, hb, hn, ht, rfl⟩ := hr
        refine ⟨tuple :: before, t, ?_, List.forall_mem_cons.mpr ⟨hc.symm, hn⟩, ht, rfl⟩
        rw [List.cons_append, ← hb]
        rfl
      · simp [commas_singleton, tupleTokens, parenthesized]
  | case3 front value tuple count hc more hp =>
    left
    rw [tuplesFrom]
    · exact (if_pos rfl).symm
    · exact hp
  | case4 front value tuple count hc rest hn hp =>
    left
    rw [tuplesFrom]
    · exact (if_pos rfl).symm
    · exact hn
    · exact hp
  | case5 front value rest tuple count hc =>
    refine .inr ⟨[value], [], _, rest, rfl, ?_, List.cons_ne_nil _ _, List.forall_mem_nil _, ?_⟩
    · exact ⟨[], tuple, rfl, List.forall_mem_nil _, Ne.symm hc, rfl⟩
    · simp [commas_singleton]
  | case6 front value rest hn hp =>
    left
    rw [tuplesFrom]
    · exact hn
    · exact hp
  | case7 front tokens hc hp hv =>
    left
    rw [tuplesFrom]
    · exact hc
    · exact hp
    · exact hv

/-- Counting the values of tuples changes nothing, or the tuples are refused at the first one
with another number of values, which was read to its end. -/
theorem tuples_counted (n : Nat) (tokens : List Token) :
    tuples (some n) tokens = tuples none tokens ∨
    ∃ list e rest, tuples (some n) tokens = .error ⟨e, rest⟩ ∧ Refused n list e ∧
      (∀ t ∈ list, t ≠ []) ∧ tokens = commas (list.map tupleTokens) ++ rest := by
  cases hs : symbol .leftParen tokens with
  | error f =>
    left
    rw [tuples, tuples, hs]
    rfl
  | ok inside =>
    rcases tuplesFrom_counted n [] inside with he | ⟨last, others, e, rest, he, hr, hl, ho, rfl⟩
    · left
      rw [tuples, tuples, hs, ok_bind, ok_bind, he]
    · refine .inr ⟨last :: others, e, rest, ?_, hr, List.forall_mem_cons.mpr ⟨hl, ho⟩, ?_⟩
      · rw [tuples, hs, ok_bind, he]
      · rw [eq_of_token hs, List.map_cons, commas_eq_flatMap]
        simp [tupleTokens, parenthesized]

/-- Two sequences with the same first step do the same if their second steps do, or else what the
difference of these comes from is so. -/
theorem bind_eq_or {α β : Type} {x : Except Failure α} {f g : α → Except Failure β} {P : Prop}
    (h : ∀ a, x = .ok a → f a = g a ∨ P) : (x >>= f) = (x >>= g) ∨ P := by
  cases x with
  | error e => exact .inl rfl
  | ok a => exact h a rfl

/-- An insertion is read as if the values were not counted, or it is refused at a tuple. -/
theorem insert_counted (tokens : List Token) :
    insert tokens = insertUncounted tokens ∨
    ∃ fields values rest, insert tokens = .error ⟨.arityMismatch fields values, rest⟩ ∧
      Miscounted (.keyword .insert :: tokens) rest fields values := by
  refine bind_eq_or fun afterInto hi => bind_eq_or fun ⟨table, afterTable⟩ ht =>
    bind_eq_or fun ⟨choice, afterFields⟩ hf => bind_eq_or fun afterValues hk => ?_
  cases choice with
  | all => exact .inl rfl
  | named names =>
    rcases tuples_counted names.length afterValues with he | ⟨list, e, rest, he, hr, hl, rfl⟩
    · left
      simp only [arityOf, he]
    · obtain ⟨before, t, rfl, hb, hlen, rfl⟩ := hr
      obtain ⟨hc, rfl⟩ := eq_of_insertFields hf
      refine .inr ⟨_, _, rest, ?_, table, names, before, t, ⟨hc, by simp, hl⟩, ?_, hb, hlen, rfl,
        rfl⟩
      · simp only [insert, hi, ok_bind, ht, hf, hk, arityOf, he]
        rfl
      · simp [Statement.tokens, eq_of_token hi, eq_of_identifier ht, eq_of_token hk,
          returningTokens, Fields.empty]

/-- Counting the values of tuples changes nothing about a statement, or it is an insertion that
is refused at the first miscounted tuple. -/
theorem statement_counted (tokens : List Token) :
    statement tokens = statementUncounted tokens ∨
    ∃ fields values rest, statement tokens = .error ⟨.arityMismatch fields values, rest⟩ ∧
      Miscounted tokens rest fields values := by
  unfold statementUncounted
  split
  next rest => exact insert_counted rest
  next => exact .inl rfl

/-! ## The place of an error -/

/-- Tokens that are not read to their end are no sentence. -/
theorem not_mem_sentences {tokens : List Token}
    (h : ∀ s, statementUncounted tokens ≠ .ok (s, [])) : tokens ∉ sentences := by
  rintro ⟨s, hs, rfl⟩
  exact h s (statementUncounted_tokens hs)

/-- Tokens are not viable if they are not read to their end, whatever is behind them. -/
theorem not_viable {tokens : List Token}
    (h : ∀ more s, statementUncounted (tokens ++ more) ≠ .ok (s, [])) : ¬ Viable tokens := by
  rintro ⟨_, hs, more, rfl⟩
  exact not_mem_sentences (h more) hs

/-- What an error noticed in front of the rest says about the tokens. -/
def Located (tokens rest : List Token) : SyntaxError → Prop
  | .unexpectedToken _ found | .trailingTokens found =>
    ∃ i, rest = tokens.drop i ∧ tokens[i]? = some found ∧ Viable (tokens.take i) ∧
      ¬ Viable (tokens.take (i + 1))
  | .unexpectedEnd _ | .emptyStatement => rest = [] ∧ Viable tokens ∧ tokens ∉ sentences
  | .arityMismatch fields values => Miscounted tokens rest fields values

/-- The token behind viable tokens with which they are not viable any more. -/
theorem exists_place {front rest : List Token} {found : Token} (hv : Viable front)
    (hn : ¬ Viable (front ++ [found])) :
    ∃ i, found :: rest = (front ++ found :: rest).drop i ∧
      (front ++ found :: rest)[i]? = some found ∧ Viable ((front ++ found :: rest).take i) ∧
      ¬ Viable ((front ++ found :: rest).take (i + 1)) := by
  have htake : (front ++ found :: rest).take (front.length + 1) = front ++ [found] := by
    simp [List.take_append]
  refine ⟨front.length, by simp, by simp, ?_, ?_⟩
  · rwa [List.take_left]
  · rwa [htake]

/-- Where a reader of statements fails that looks one token ahead, and where it ends too early. -/
theorem located_of_reads {tokens : List Token} {f : Failure}
    (h : Reads statementUncounted sentences tokens)
    (hw : whole tokens = .error f) (hs : statement tokens = statementUncounted tokens) :
    Located tokens f.rest f.error := by
  rw [whole, hs] at hw
  cases h with
  | @stuck front expected rest more sentence outcome =>
    have hv : Viable front := ⟨front ++ more, sentence, List.prefix_append front more⟩
    rw [outcome rest rfl] at hw
    cases hw
    cases rest with
    | nil =>
      refine ⟨rfl, (List.append_nil front).symm ▸ hv, not_mem_sentences fun s hs => ?_⟩
      rw [outcome [] rfl] at hs
      cases hs
    | cons found rest =>
      -- The reader stops at the token whatever is behind it, and it would read a sentence.
      refine exists_place hv (not_viable fun more s hs => ?_)
      rw [List.append_assoc, outcome ([found] ++ more) rfl] at hs
      cases hs
  | @read front s rest sentence outcome =>
    rw [outcome rest rfl, ok_bind] at hw
    cases rest with
    | nil => cases hw
    | cons found rest =>
      cases hw
      have hv : Viable front := ⟨front, sentence, List.prefix_rfl⟩
      refine exists_place hv (not_viable fun more s' hs => ?_)
      rw [List.append_assoc, outcome ([found] ++ more) rfl] at hs
      cases hs

/-- Whatever error the reader of a whole statement gives is located by it. -/
theorem whole_located {tokens : List Token} {f : Failure} (h : whole tokens = .error f) :
    Located tokens f.rest f.error := by
  rcases statement_counted tokens with hs | ⟨fields, values, rest, hs, hm⟩
  · by_cases hne : tokens = []
    · subst hne
      cases h
      obtain ⟨w, hw⟩ := (reads_statementUncounted (List.cons_ne_nil (.keyword .drop) [])).nonempty
      refine ⟨rfl, ⟨w, hw, List.nil_prefix⟩, not_mem_sentences fun s hs => ?_⟩
      cases hs
    · exact located_of_reads (reads_statementUncounted hne) h hs
  · rw [whole, hs] at h
    cases h
    exact hm

end Parser

/-- A syntax error points at the first token with which no statement can go on. If it names a
token, then the tokens before that one begin a sentence and with it they begin none; if it says
that the tokens end too early or that there are none, then they begin a sentence and are none; and
if it counts the values of a tuple, that tuple is the first one read that has another number of
values than columns are listed. -/
theorem Statement.error_located {tokens : List Token} {error : SyntaxError}
    (h : Statement.ofTokens tokens = .error error) :
    ∃ rest, Parser.whole tokens = .error ⟨error, rest⟩ ∧ Parser.Located tokens rest error := by
  cases hw : Parser.whole tokens with
  | error f =>
    rw [Statement.ofTokens, hw] at h
    cases h
    exact ⟨f.rest, rfl, Parser.whole_located hw⟩
  | ok s =>
    rw [Statement.ofTokens, hw] at h
    cases h

/-- A missing comma, a word behind a whole statement, a statement that breaks off, and a tuple
with a value too few. -/
theorem Statement.error_located_of_tokens :
    (∃ rest, Parser.whole [.keyword .select, .identifier "id", .identifier "name"] =
        .error ⟨.unexpectedToken (.keyword .from) (.identifier "name"), rest⟩ ∧
      Parser.Located [.keyword .select, .identifier "id", .identifier "name"] rest
        (.unexpectedToken (.keyword .from) (.identifier "name"))) ∧
    (∃ rest, Parser.whole [.keyword .drop, .keyword .table, .identifier "users", .symbol .comma] =
        .error ⟨.trailingTokens (.symbol .comma), rest⟩ ∧
      Parser.Located [.keyword .drop, .keyword .table, .identifier "users", .symbol .comma] rest
        (.trailingTokens (.symbol .comma))) ∧
    (∃ rest, Parser.whole [.keyword .delete, .keyword .from] =
        .error ⟨.unexpectedEnd .identifier, rest⟩ ∧
      Parser.Located [.keyword .delete, .keyword .from] rest (.unexpectedEnd .identifier)) ∧
    ∃ rest, Parser.whole [.keyword .insert, .keyword .into, .identifier "users",
        .symbol .leftParen, .identifier "id", .symbol .comma, .identifier "name",
        .symbol .rightParen, .keyword .values, .symbol .leftParen, .literal .null,
        .symbol .rightParen] = .error ⟨.arityMismatch 2 1, rest⟩ ∧
      Parser.Located [.keyword .insert, .keyword .into, .identifier "users",
        .symbol .leftParen, .identifier "id", .symbol .comma, .identifier "name",
        .symbol .rightParen, .keyword .values, .symbol .leftParen, .literal .null,
        .symbol .rightParen] rest (.arityMismatch 2 1) :=
  ⟨Statement.error_located rfl, Statement.error_located rfl, Statement.error_located rfl,
    Statement.error_located rfl⟩

end EmbeddedSql.Sql
