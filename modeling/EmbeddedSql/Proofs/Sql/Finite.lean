import EmbeddedSql.Proofs.Sql.Parsing
import EmbeddedSql.Proofs.Sql.Scanning
import EmbeddedSql.Sql.Reading

/-!
# Finite numbers in statements

A numeral is a token only if it is a finite number, so every number in a
statement that was read from a text is finite. The lexer is followed from what
begins at a character up to all tokens of a text; the values of a statement
stand as literals among the tokens that it is written as.
-/

namespace EmbeddedSql

/-- Whether a value is no number or a finite one. -/
def Value.isFinite : Value → Bool
  | .number n => n.isFinite
  | _ => true

namespace Sql

open Result

/-! ## Tokens -/

/-- A token is finite if it is no literal or one of a finite value. -/
def Token.isFinite : Token → Bool
  | .literal v => v.isFinite
  | _ => true

/-- A word is never a number. -/
theorem Token.isFinite_ofWord (word : String) : (Token.ofWord word).isFinite = true := by
  unfold Token.ofWord
  split
  next v hv =>
    have hcases : v = .boolean true ∨ v = .boolean false ∨ v = .null := by
      unfold literalOfWord? at hv
      simp only at hv
      split at hv
      · exact .inl (Option.some.inj hv).symm
      · split at hv
        · exact .inr (.inl (Option.some.inj hv).symm)
        · split at hv
          · exact .inr (.inr (Option.some.inj hv).symm)
          · cases hv
    rcases hcases with rfl | rfl | rfl
    · rfl
    · rfl
    · rfl
  next =>
    split
    · rfl
    · split
      · rfl
      · rfl

/-- An operator or a symbol is no literal. -/
theorem Lexeme.isFinite_sign {first : Char} {next : Option Char} {token : Token} {more : Nat}
    (h : Lexeme.sign first next = .token token more) : token.isFinite = true := by
  cases token with
  | literal v =>
    unfold Lexeme.sign at h
    split at h
    all_goals first | (split at h <;> cases h) | cases h
  | keyword k => rfl
  | columnType t => rfl
  | operator o => rfl
  | identifier name => rfl
  | symbol s => rfl

/-- Whatever token begins at a character is finite. -/
theorem Lexeme.isFinite_read {first : Char} {rest : List Char} {token : Token} {more : Nat}
    (h : Lexeme.read first rest = .token token more) : token.isFinite = true := by
  rcases Lexeme.read_cases first rest with ⟨_, hr⟩ | ⟨_, hr⟩ | ⟨_, hr⟩ | hr
  · rcases Lexeme.number_cases first rest with ⟨n, _, hfinite, hn⟩ | ⟨_, hn⟩
    · rw [hr, hn] at h
      cases h
      exact hfinite
    · rw [hr, hn] at h
      cases h
  · rw [hr, Lexeme.quoted] at h
    split at h
    · cases h
      rfl
    · cases h
  · rw [hr] at h
    cases h
    exact Token.isFinite_ofWord _
  · exact Lexeme.isFinite_sign (hr ▸ h)

namespace Lexer

/-- The next token is finite. -/
theorem isFinite_of_next? {lexer behind : Lexer} {token : Token}
    (h : lexer.next? = some (.ok token, behind)) : token.isFinite = true := by
  unfold next? at h
  simp only at h
  split at h
  · cases h
  next first rest hr =>
    split at h
    next read more hl =>
      have ht : read = token := by
        have hp := congrArg Prod.fst (Option.some.inj h)
        exact Except.ok.inj hp
      rw [← ht]
      exact Lexeme.isFinite_read hl
    all_goals cases h

/-- All tokens that the lexer yields are finite. -/
theorem isFinite_of_mem_itemsWithin {steps : Nat} {lexer : Lexer} {token : Token}
    (h : .ok token ∈ itemsWithin steps lexer) : token.isFinite = true := by
  induction steps generalizing lexer with
  | zero => cases h
  | succ steps ih =>
    rw [itemsWithin] at h
    split at h
    · cases h
    next item behind hn =>
      rcases List.mem_cons.mp h with he | hm
      · rw [← he] at hn
        exact isFinite_of_next? hn
      · exact ih hm

end Lexer

/-- Every collected token was yielded. -/
theorem mem_of_mem_collect {items : List (Except LexicalError Token)} {token : Token}
    (h : token ∈ (collect items).1) : .ok token ∈ items := by
  induction items with
  | nil => cases h
  | cons item rest ih =>
    cases item with
    | ok first =>
      rcases List.mem_cons.mp h with rfl | hm
      · exact List.mem_cons_self ..
      · exact List.mem_cons_of_mem _ (ih hm)
    | error e => cases h

/-- All tokens of a text are finite. -/
theorem isFinite_of_tokenize {text : List Char} {tokens : List Token}
    (h : tokenize text = .ok tokens) : ∀ token ∈ tokens, token.isFinite = true := by
  intro token hm
  unfold tokenize at h
  split at h
  next found hl =>
    have hc : tokens = (collect (Lexer.start text).items).1 := by
      rw [← Except.ok.inj h]
      exact (congrArg Prod.fst hl).symm
    rw [hc] at hm
    exact Lexer.isFinite_of_mem_itemsWithin (mem_of_mem_collect hm)
  next => cases h

/-! ## Statements -/

/-- The values that a statement gives to columns. -/
def Statement.written : Statement → List Value
  | .insert s => s.tuples.flatten
  | .update s => s.assignments.map (·.value)
  | _ => []

/-- A statement gives no column a number that is not finite. -/
def Statement.Finite (statement : Statement) : Prop :=
  ∀ v ∈ statement.written, v.isFinite = true

/-- The tokens of an entry are among those of all entries with commas. -/
theorem mem_commas {entries : List (List Token)} {entry : List Token} {token : Token}
    (he : entry ∈ entries) (ht : token ∈ entry) : token ∈ commas entries := by
  cases entries with
  | nil => cases he
  | cons first rest =>
    rw [commas_eq_flatMap, List.mem_append, List.mem_flatMap]
    rcases List.mem_cons.mp he with rfl | hm
    · exact .inl ht
    · exact .inr ⟨entry, hm, List.mem_cons_of_mem _ ht⟩

/-- The values of a tuple stand among its tokens. -/
theorem literal_mem_tupleTokens {tuple : List Value} {v : Value} (h : v ∈ tuple) :
    .literal v ∈ tupleTokens tuple := by
  have hentry : [Token.literal v] ∈ tuple.map fun value => [Token.literal value] :=
    List.mem_map_of_mem h
  have hm : Token.literal v ∈ commas (tuple.map fun value => [Token.literal value]) :=
    mem_commas hentry (List.mem_singleton_self _)
  simp [tupleTokens, parenthesized, hm]

/-- The values that a statement gives to columns stand among its tokens. -/
theorem Statement.literal_mem_tokens {statement : Statement} {v : Value}
    (h : v ∈ statement.written) : .literal v ∈ statement.tokens := by
  cases statement with
  | insert s =>
    obtain ⟨tuple, ht, hv⟩ := List.mem_flatten.mp h
    have hm := mem_commas (List.mem_map_of_mem ht) (literal_mem_tupleTokens hv)
    simp [Statement.tokens, hm]
  | update s =>
    obtain ⟨a, ha, rfl⟩ := List.mem_map.mp h
    have ht : .literal a.value ∈ a.tokens := by simp [Assignment.tokens]
    have hm := mem_commas (List.mem_map_of_mem ha) ht
    simp [Statement.tokens, hm]
  | select s => cases h
  | delete s => cases h
  | create s => cases h
  | drop s => cases h

/-- A statement that was read from a text is finite. -/
theorem finite_of_parseStatement {text : List Char} {statement : Statement}
    (h : parseStatement text = .ok statement) : statement.Finite := by
  unfold parseStatement at h
  split at h
  · cases h
  next tokens ht =>
    have hs := mapError_eq_ok_iff.mp (mapError_eq_ok_iff.mp h)
    have htokens := (Parser.eq_of_whole hs).2
    intro v hv
    have hm := Statement.literal_mem_tokens hv
    rw [← htokens] at hm
    exact isFinite_of_tokenize ht _ hm

/-- All statements of a script that was read are finite. -/
theorem finite_of_parseScript {script : List Char} {statements : List Statement}
    (h : parseScript script = .ok statements) : ∀ statement ∈ statements, statement.Finite := by
  have hall := mapM_eq_ok_iff.mp h
  clear h
  generalize Script.statements script = texts at hall
  induction hall with
  | nil => exact List.forall_mem_nil _
  | cons hfirst _ ih => exact List.forall_mem_cons.mpr ⟨finite_of_parseStatement hfirst, ih⟩

end Sql

end EmbeddedSql
