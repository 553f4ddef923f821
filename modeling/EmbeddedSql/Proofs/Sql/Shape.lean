import EmbeddedSql.Proofs.Sql.Binding
import EmbeddedSql.Proofs.Sql.Parsing
import EmbeddedSql.Sql.Reading

/-!
# The shape of what runs

The shape of a statement is all of it but the values in it. Parameters are
written into a template as text, and that text is scanned again; where the
placeholders stand in statements, outside quotes and comments and apart from
their neighbours, the parameters have no say in the number of statements and
their shapes. In other places they have.
-/

namespace EmbeddedSql.Sql

/-! ## Shapes -/

/-- A comparison without its value. -/
def Condition.shape (c : Condition) : Condition :=
  { c with value := .null }

/-- An assignment without its value. -/
def Assignment.shape (a : Assignment) : Assignment :=
  { a with value := .null }

/-- A condition on rows without its values. -/
def Conditions.shape (groups : Conditions) : Conditions :=
  groups.map fun group => group.map Condition.shape

/-- A statement with null for every value in it. -/
def Statement.shape : Statement → Statement
  | .select s => .select { s with conditions := s.conditions.shape }
  | .insert s => .insert { s with tuples := s.tuples.map fun tuple => tuple.map fun _ => .null }
  | .update s => .update { s with
      assignments := s.assignments.map Assignment.shape
      conditions := s.conditions.shape }
  | .delete s => .delete { s with conditions := s.conditions.shape }
  | .create s => .create s
  | .drop s => .drop s

/-- A token, with null for a value. -/
def Token.shape : Token → Token
  | .literal _ => .literal .null
  | token => token

/-! ## Shapes of tokens -/

/-- The shape of entries with separators is the shapes of the entries with those of the
separators. -/
theorem map_shape_intercalate (separator : List Token) (entries : List (List Token)) :
    (List.intercalate separator entries).map Token.shape =
      List.intercalate (separator.map Token.shape)
        (entries.map fun entry => entry.map Token.shape) := by
  induction entries with
  | nil => rfl
  | cons first rest ih =>
    cases rest with
    | nil => simp
    | cons second more =>
      simp only [List.map_cons] at ih ⊢
      rw [List.intercalate_cons_cons, List.intercalate_cons_cons, List.map_append,
        List.map_append, ih]

/-- The shape of a list with commas is the list of the shapes. -/
theorem map_shape_commas (entries : List (List Token)) :
    (commas entries).map Token.shape = commas (entries.map fun entry => entry.map Token.shape) :=
  map_shape_intercalate _ entries

/-- A list of names holds no values, so it is its own shape. -/
theorem map_shape_names (names : List String) :
    (commas (names.map fun name => [.identifier name])).map Token.shape =
      commas (names.map fun name => [.identifier name]) := by
  rw [map_shape_commas, List.map_map]
  rfl

/-- An asterisk or a list of names is its own shape. -/
theorem map_shape_fields (choice : Fields) : choice.tokens.map Token.shape = choice.tokens := by
  cases choice with
  | all => rfl
  | named names => exact map_shape_names names

/-- A RETURNING clause is its own shape. -/
theorem map_shape_returning (choice : Fields) :
    (returningTokens choice).map Token.shape = returningTokens choice := by
  unfold returningTokens
  split
  · rfl
  · rw [List.map_cons, map_shape_fields]
    rfl

/-- The shape of a list in parentheses is the list of the shapes in parentheses. -/
theorem map_shape_parenthesized (entries : List (List Token)) :
    (parenthesized entries).map Token.shape =
      parenthesized (entries.map fun entry => entry.map Token.shape) := by
  simp only [parenthesized, List.map_append, List.map_cons, map_shape_commas]
  rfl

/-- The fields of an INSERT are their own shape. -/
theorem map_shape_listed (choice : Fields) :
    (listedTokens choice).map Token.shape = listedTokens choice := by
  cases choice with
  | all => rfl
  | named names =>
    rw [listedTokens, map_shape_parenthesized, List.map_map]
    rfl

/-- The shape of a tuple has as many values, all of them null. -/
theorem map_shape_tuple (tuple : List Value) :
    (tupleTokens tuple).map Token.shape = tupleTokens (tuple.map fun _ => .null) := by
  rw [tupleTokens, map_shape_parenthesized, List.map_map, tupleTokens, List.map_map]
  rfl

/-- The tokens of conditions have the shape of the conditions. -/
theorem map_shape_conditions (groups : Conditions) :
    (conditionTokens groups).map Token.shape = conditionTokens groups.shape := by
  have hgroup (group : List Condition) :
      (groupTokens group).map Token.shape = groupTokens (group.map Condition.shape) := by
    rw [groupTokens, map_shape_intercalate, List.map_map, groupTokens, List.map_map]
    rfl
  rw [conditionTokens, map_shape_intercalate, List.map_map, conditionTokens, Conditions.shape,
    List.map_map]
  congr 1
  exact List.map_congr_left fun group _ => hgroup group

/-- The tokens of a WHERE clause have the shape of its conditions. -/
theorem map_shape_where (groups : Conditions) :
    (whereTokens groups).map Token.shape = whereTokens groups.shape := by
  cases groups with
  | nil => rfl
  | cons group others =>
    change Token.keyword .where :: (conditionTokens (group :: others)).map Token.shape = _
    rw [map_shape_conditions]
    rfl

/-- The tokens of assignments have the shapes of the assignments. -/
theorem map_shape_assignments (list : List Assignment) :
    (commas (list.map Assignment.tokens)).map Token.shape =
      commas ((list.map Assignment.shape).map Assignment.tokens) := by
  rw [map_shape_commas, List.map_map, List.map_map]
  rfl

/-- The columns of a CREATE TABLE hold no values, so they are their own shape. -/
theorem map_shape_columns (list : List Column) :
    (parenthesized (list.map Column.tokens)).map Token.shape =
      parenthesized (list.map Column.tokens) := by
  rw [map_shape_parenthesized, List.map_map]
  rfl

/-- A statement's shape is written as the statement is, with null for its
values. -/
theorem Statement.tokens_shape (s : Statement) : s.shape.tokens = s.tokens.map Token.shape := by
  cases s with
  | select s =>
    simp only [Statement.shape, Statement.tokens, List.map_append, List.map_cons,
      map_shape_fields, map_shape_where]
    rfl
  | insert s =>
    have htuples : (commas (s.tuples.map tupleTokens)).map Token.shape =
        commas ((s.tuples.map fun tuple => tuple.map fun _ => .null).map tupleTokens) := by
      rw [map_shape_commas, List.map_map, List.map_map]
      congr 1
      exact List.map_congr_left fun tuple _ => map_shape_tuple tuple
    simp only [Statement.shape, Statement.tokens, List.map_append, List.map_cons,
      map_shape_listed, map_shape_returning, htuples]
    rfl
  | update s =>
    simp only [Statement.shape, Statement.tokens, List.map_append, List.map_cons,
      map_shape_assignments, map_shape_where, map_shape_returning]
    rfl
  | delete s =>
    simp only [Statement.shape, Statement.tokens, List.map_append, List.map_cons,
      map_shape_where, map_shape_returning]
    rfl
  | create s =>
    have hflag : (ifNotExistsTokens s.ifNotExists).map Token.shape =
        ifNotExistsTokens s.ifNotExists := by
      cases s.ifNotExists <;> rfl
    simp only [Statement.shape, Statement.tokens, List.map_append, List.map_cons, hflag,
      map_shape_columns]
    rfl
  | drop s =>
    have hflag : (ifExistsTokens s.ifExists).map Token.shape = ifExistsTokens s.ifExists := by
      cases s.ifExists <;> rfl
    simp only [Statement.shape, Statement.tokens, List.map_append, List.map_cons, hflag]
    rfl

/-- The shape of well-formed conditions is well-formed, as it keeps groups and operators. -/
theorem Conditions.wellFormed_shape {groups : Conditions} (h : Conditions.WellFormed groups) :
    Conditions.WellFormed groups.shape := by
  intro group hg
  obtain ⟨group', hg', rfl⟩ := List.mem_map.mp hg
  obtain ⟨hne, hoperators⟩ := h group' hg'
  refine ⟨by simpa using hne, fun c hc => ?_⟩
  obtain ⟨c', hc', rfl⟩ := List.mem_map.mp hc
  exact hoperators c' hc'

/-- The shape of a statement that can be written can be written. -/
theorem Statement.wellFormed_shape {s : Statement} (h : s.WellFormed) : s.shape.WellFormed := by
  cases s with
  | select s => exact ⟨h.1, Conditions.wellFormed_shape h.2⟩
  | insert s =>
    obtain ⟨hfields, hne, htuples⟩ := h
    refine ⟨hfields, by simpa using hne, fun tuple ht => ?_⟩
    obtain ⟨tuple', ht', rfl⟩ := List.mem_map.mp ht
    obtain ⟨hne', hlength⟩ := htuples tuple' ht'
    refine ⟨by simpa using hne', fun names hn => ?_⟩
    rw [List.length_map]
    exact hlength names hn
  | update s => exact ⟨by simpa using h.1, Conditions.wellFormed_shape h.2⟩
  | delete s => exact Conditions.wellFormed_shape h
  | create s => exact h
  | drop s => trivial

/-- Statements that can be written and are written alike are the same. -/
theorem Statement.eq_of_tokens_eq {s t : Statement} (hs : s.WellFormed) (ht : t.WellFormed)
    (h : s.tokens = t.tokens) : s = t := by
  have hread := Parser.statement_tokens hs
  rw [h, Parser.statement_tokens ht] at hread
  exact (Prod.mk.inj (Except.ok.inj hread)).1.symm

/-- A text that is read as a statement has the tokens of that statement. -/
theorem tokens?_of_parseStatement {text : List Char} {s : Statement}
    (h : parseStatement text = .ok s) : tokens? text = some s.tokens ∧ s.WellFormed := by
  unfold parseStatement at h
  cases ht : tokenize text with
  | error error =>
    rw [ht] at h
    cases h
  | ok tokens =>
    rw [ht] at h
    have hstatement : Statement.ofTokens tokens = .ok s := Result.mapError_eq_ok_iff.mp h
    have hwhole : Parser.whole tokens = .ok s := Result.mapError_eq_ok_iff.mp hstatement
    obtain ⟨hw, rfl⟩ := Parser.eq_of_whole hwhole
    exact ⟨tokenize_eq_ok_iff.mp ht, hw⟩

/-- A script with one statement text, which has the tokens of a statement, is read
as that statement. -/
theorem parseScript_of_tokens (script : List Char) (s : Statement) {text : List Char}
    (htext : Script.statements script = [text]) (htokens : tokenize text = .ok s.tokens)
    (hw : s.WellFormed) : parseScript script = .ok [s] := by
  have hstatement : parseStatement text = .ok s := by
    simp only [parseStatement, htokens, Statement.ofTokens, Parser.whole,
      Parser.statement_tokens hw]
    rfl
  rw [parseScript, htext, Result.mapM_eq_ok_iff]
  exact .cons hstatement .nil

namespace Template

/-- Parameters fill an item with one token or another of one shape. -/
theorem shape_fill (first second : List Value) (item : Item) :
    (item.fill first).shape = (item.fill second).shape := by
  cases item <;> rfl

/-- The statements of a bound template have the tokens of the template's texts,
with the parameters' values for the placeholders. -/
theorem forall₂_statement {template bound : List Char} {parameters : List Value}
    {statements : List Statement} (hplaced : Placed none .plain false template)
    (hbind : bindTemplate template parameters = .ok bound)
    (hparse : parseScript bound = .ok statements) :
    List.Forall₂ (fun text s => s.WellFormed ∧
        (items? text).map (·.map (Item.fill parameters)) = some s.tokens)
      (Script.statements template) statements := by
  have htokens := forall₂_tokens? hplaced (Result.mapError_eq_ok_iff.mp hbind)
  rw [parseScript, Result.mapM_eq_ok_iff] at hparse
  refine (Result.forall₂_comp htokens hparse).imp ?_
  rintro text s ⟨new, hnew, hs⟩
  obtain ⟨hstokens, hwell⟩ := tokens?_of_parseStatement hs
  exact ⟨hwell, hnew.symm.trans hstokens⟩

/-- Two statements with the tokens of one text with placeholders have one shape. -/
theorem shape_eq_of_items {first second : List Value} {items : Option (List Item)}
    {s t : Statement} (hs : s.WellFormed) (ht : t.WellFormed)
    (hsitems : items.map (·.map (Item.fill first)) = some s.tokens)
    (htitems : items.map (·.map (Item.fill second)) = some t.tokens) : s.shape = t.shape := by
  obtain ⟨list, rfl, hfirst⟩ := Option.map_eq_some_iff.mp hsitems
  have hsecond : list.map (Item.fill second) = t.tokens := Option.some.inj htitems
  have hwell := Statement.wellFormed_shape hs
  refine Statement.eq_of_tokens_eq hwell (Statement.wellFormed_shape ht) ?_
  rw [Statement.tokens_shape, Statement.tokens_shape, ← hfirst, ← hsecond, List.map_map,
    List.map_map]
  exact List.map_congr_left fun item _ => shape_fill first second item

/-- Whatever parameters are written into a template, if its placeholders are the
same for the binder and for the splitter and stand apart from what is around
them, then it comes to as many statements, of the same shapes. -/
theorem shape_eq (template : List Char)
    (hplaced : ∀ front digits back, Occurs template front digits back →
      (quoteFrom none front = none ↔ Script.modeAfter .plain front = .plain) ∧
      (quoteFrom none front = none → Apart front back))
    (first second : List Value) {left right : List Char} {ls rs : List Statement}
    (hleft : bindTemplate template first = .ok left)
    (hright : bindTemplate template second = .ok right)
    (hls : parseScript left = .ok ls) (hrs : parseScript right = .ok rs) :
    List.Forall₂ (fun s t => s.shape = t.shape) ls rs := by
  have hsame : Placed none .plain false template := by
    intro front digits back hoccurs
    obtain ⟨hmode, hapart⟩ := hplaced front digits back hoccurs
    refine ⟨hmode, fun hquote => ?_⟩
    exact ⟨gluedBehind_eq_false_iff.mpr (hapart hquote).before, (hapart hquote).behind⟩
  have hltexts := (forall₂_statement hsame hleft hls).flip
  have hrtexts := forall₂_statement hsame hright hrs
  refine (Result.forall₂_comp hltexts hrtexts).imp ?_
  rintro s t ⟨text, ⟨hs, hsitems⟩, ht, htitems⟩
  exact shape_eq_of_items hs ht hsitems htitems

/-- A value that tries to end its statement stays a value. -/
theorem shape_eq_of_text :
    ∃ left right ls rs, bindTemplate "DELETE FROM t WHERE a = $1".toList [.text "x"] = .ok left ∧
      bindTemplate "DELETE FROM t WHERE a = $1".toList [.text "';DROP TABLE t --"] = .ok right ∧
      parseScript left = .ok ls ∧ parseScript right = .ok rs ∧
      List.Forall₂ (fun s t => s.shape = t.shape) ls rs := by
  have hplaced (front digits back : List Char)
      (h : Occurs "DELETE FROM t WHERE a = $1".toList front digits back) :
      (quoteFrom none front = none ↔ Script.modeAfter .plain front = .plain) ∧
        (quoteFrom none front = none → Apart front back) := by
    obtain ⟨rfl, hdigits⟩ := @Occurs.eq_of_not_mem "DELETE FROM t WHERE a = ".toList ['1'] front
      digits back (by decide) (by decide) h
    obtain ⟨rfl, rfl⟩ : digits = ['1'] ∧ back = [] :=
      digits_eq h.digit h.ends (List.all_eq_true.mp (by decide)) (fun _ hc => nomatch hc) hdigits
    have hmode : Script.modeAfter .plain "DELETE FROM t WHERE a = ".toList = .plain := by decide
    have hquote : quoteFrom none "DELETE FROM t WHERE a = ".toList = none := by decide
    have hapart : Apart "DELETE FROM t WHERE a = ".toList [] :=
      ⟨fun _ hc => by cases hc; rfl, fun _ hc => nomatch hc⟩
    exact ⟨⟨fun _ => hmode, fun _ => hquote⟩, fun _ => hapart⟩
  have hleft : bindTemplate "DELETE FROM t WHERE a = $1".toList [.text "x"] =
      .ok "DELETE FROM t WHERE a = \"x\"".toList := rfl
  have hright : bindTemplate "DELETE FROM t WHERE a = $1".toList [.text "';DROP TABLE t --"] =
      .ok "DELETE FROM t WHERE a = \"';DROP TABLE t --\"".toList := rfl
  have hwell (v : Value) :
      (Statement.delete ⟨"t", [[⟨"a", .equal, v⟩]], .empty⟩).WellFormed := by
    simp [Statement.WellFormed, Conditions.WellFormed, Operator.comparisons]
  have hls := parseScript_of_tokens "DELETE FROM t WHERE a = \"x\"".toList
    (.delete ⟨"t", [[⟨"a", .equal, .text "x"⟩]], .empty⟩) rfl rfl (hwell _)
  have hrs := parseScript_of_tokens "DELETE FROM t WHERE a = \"';DROP TABLE t --\"".toList
    (.delete ⟨"t", [[⟨"a", .equal, .text "';DROP TABLE t --"⟩]], .empty⟩) rfl rfl (hwell _)
  exact ⟨_, _, _, _, hleft, hright, hls, hrs, shape_eq _ hplaced _ _ hleft hright hls hrs⟩

/-- In a comment a value can end the line and the comment with it, and what
follows in it runs: here a second statement that removes the table. -/
theorem shape_ne_of_comment :
    ¬ ∀ (template : List Char) (first second : List Value) (left right : List Char)
        (ls rs : List Statement), first.map Value.kindName = second.map Value.kindName →
        bindTemplate template first = .ok left → bindTemplate template second = .ok right →
        parseScript left = .ok ls → parseScript right = .ok rs →
        List.Forall₂ (fun s t => s.shape = t.shape) ls rs := by
  intro hshape
  have hone : parseScript "SELECT * FROM t -- \"x\"".toList = .ok [.select ⟨"t", .all, []⟩] := rfl
  have htwo : parseScript "SELECT * FROM t -- \"x\n;DROP TABLE t --\"".toList =
      .ok [.select ⟨"t", .all, []⟩, .drop ⟨"t", false⟩] := rfl
  have hfirst : bindTemplate "SELECT * FROM t -- $1".toList [.text "x"] =
      .ok "SELECT * FROM t -- \"x\"".toList := rfl
  have hsecond : bindTemplate "SELECT * FROM t -- $1".toList [.text "x\n;DROP TABLE t --"] =
      .ok "SELECT * FROM t -- \"x\n;DROP TABLE t --\"".toList := rfl
  have hkinds : [Value.text "x"].map Value.kindName =
      [Value.text "x\n;DROP TABLE t --"].map Value.kindName := rfl
  have hsame := hshape _ _ _ _ _ _ _ hkinds hfirst hsecond hone htwo
  exact absurd hsame.length_eq (by decide)

end Template

end EmbeddedSql.Sql
