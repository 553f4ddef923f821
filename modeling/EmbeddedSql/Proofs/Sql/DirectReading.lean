import EmbeddedSql.Proofs.Sql.Lexemes
import EmbeddedSql.Proofs.Sql.Parsing
import EmbeddedSql.Proofs.Sql.Resplitting
import EmbeddedSql.Sql.Reading

/-!
# Reading a text directly or by way of the splitter

Where the splitter has nothing to split and no comment to drop, it only changes the
whitespace of a text. The lexer and the splitter follow such a text a word at a time,
each word being what belongs to one token or to an error: both are outside quotes in
front of it, the splitter copies it, and the lexer reads it as the same behind the
spaces that are left.
-/

namespace EmbeddedSql.Sql

namespace Script

/-! ## Texts that are not split -/

/-- Outside quotes, as a scan from a mode on reads them, there is neither a semicolon nor
the beginning of a comment. -/
def Unbroken (mode : Mode) (text : List Char) : Prop :=
  ∀ front back, text = front ++ back → modeAfter mode front = .plain →
    back.head? ≠ some ';' ∧ ¬ ['-', '-'] <+: back

/-- It is enough to look at every place of the text. -/
theorem unbroken_iff_forall_le {mode : Mode} {text : List Char} :
    Unbroken mode text ↔ ∀ n ≤ text.length, modeAfter mode (text.take n) = .plain →
      (text.drop n).head? ≠ some ';' ∧ ¬ ['-', '-'] <+: text.drop n := by
  constructor
  · exact fun h n _ => h _ _ (List.take_append_drop n text).symm
  · rintro h front back rfl hmode
    have hat := h front.length (by simp)
    rw [List.take_left, List.drop_left] at hat
    exact hat hmode

instance (mode : Mode) (text : List Char) : Decidable (Unbroken mode text) :=
  decidable_of_iff' _ unbroken_iff_forall_le

/-- What follows a front in such a text is one too. -/
theorem Unbroken.of_append {mode : Mode} {front back : List Char}
    (h : Unbroken mode (front ++ back))
    (hd : front.getLast? ≠ some '-' ∨ back.head? ≠ some '-') :
    Unbroken (modeAfter mode front) back := by
  rintro more behind rfl hmode
  have hjoint : front.getLast? ≠ some '-' ∨ more.head? ≠ some '-' := by
    refine hd.imp_right fun hne hm => hne ?_
    obtain ⟨rest, rfl⟩ := List.head?_eq_some_iff.mp hm
    rfl
  exact h (front ++ more) behind (List.append_assoc ..).symm
    ((modeAfter_append hjoint).trans hmode)

/-- A word in front of such a text makes another one, if nothing in the word breaks it. -/
theorem Unbroken.append {word back : List Char} (h : Unbroken .plain back)
    (hmode : modeAfter .plain word = .plain)
    (hd : word.getLast? ≠ some '-' ∨ back.head? ≠ some '-')
    (hword : ∀ front c behind, word = front ++ c :: behind → modeAfter .plain front = .plain →
      c ≠ ';' ∧ (c = '-' → (behind ++ back).head? ≠ some '-')) :
    Unbroken .plain (word ++ back) := by
  intro front behind hsplit hplain
  rcases List.append_eq_append_iff.mp hsplit with ⟨more, rfl, rfl⟩ | ⟨more, rfl, rfl⟩
  · have hjoint : word.getLast? ≠ some '-' ∨ more.head? ≠ some '-' := by
      refine hd.imp_right fun hne hm => hne ?_
      obtain ⟨rest, rfl⟩ := List.head?_eq_some_iff.mp hm
      rfl
    rw [modeAfter_append hjoint, hmode] at hplain
    exact h more behind rfl hplain
  · cases more with
    | nil => exact h [] back rfl rfl
    | cons c more =>
      obtain ⟨hstop, hdash⟩ := hword front c more rfl hplain
      refine ⟨fun hc => hstop (Option.some.inj hc), ?_⟩
      rintro ⟨rest, hrest⟩
      obtain ⟨rfl, htail⟩ := List.cons.inj hrest
      exact hdash rfl (congrArg List.head? htail).symm

/-- What begins such a text is no semicolon and no comment. -/
theorem Unbroken.head {c : Char} {rest : List Char} (h : Unbroken .plain (c :: rest)) :
    c ≠ ';' ∧ (c = '-' → rest.head? ≠ some '-') := by
  obtain ⟨hstop, hcomment⟩ := h [] _ rfl rfl
  refine ⟨fun hc => hstop (congrArg some hc), ?_⟩
  rintro rfl hnext
  obtain ⟨more, rfl⟩ := List.head?_eq_some_iff.mp hnext
  exact hcomment ⟨more, rfl⟩

/-- A character with inert ones behind it does not end with a dash next to another one,
if the character itself is none next to another one. -/
theorem joint_of_isInert {c : Char} {more back : List Char}
    (hc : c = '-' → (more ++ back).head? ≠ some '-') (h : ∀ d ∈ more, isInert d = true) :
    (c :: more).getLast? ≠ some '-' ∨ back.head? ≠ some '-' := by
  refine or_iff_not_imp_left.mpr fun hlast => ?_
  rw [not_not] at hlast
  cases hend : more.getLast? with
  | some d =>
    rw [List.getLast?_cons, hend] at hlast
    have hd : d = '-' := Option.some.inj hlast
    have hinert := h d (List.mem_of_getLast? hend)
    rw [hd] at hinert
    exact absurd hinert (by decide)
  | none =>
    obtain rfl := List.getLast?_eq_none_iff.mp hend
    exact hc (Option.some.inj hlast)

/-- The scan of such a text meets no stop. -/
theorem Unbroken.stop_not_mem {mode : Mode} {text : List Char} (h : Unbroken mode text) :
    .stop ∉ piecesFrom mode text := by
  intro hstop
  obtain ⟨front, back, hsplit, _, hmode⟩ := exists_semicolon hstop
  exact (h front _ hsplit hmode).1 rfl

/-- A character and inert ones behind it stand by themselves, if that character is no
quote, no semicolon and no whitespace. -/
theorem standalone_cons {c : Char} {more : List Char} (hq : isQuote c = false) (hc : c ≠ ';')
    (hsolid : Text.isWhitespace c = false) (h : ∀ d ∈ more, isInert d = true) :
    Standalone (c :: more) := by
  have hnext : ¬ (c = '-' ∧ more.head? = some '-') := by
    rintro ⟨-, hd⟩
    obtain ⟨rest, rfl⟩ := List.head?_eq_some_iff.mp hd
    have hdash := h '-' List.mem_cons_self
    exact absurd hdash (by decide)
  have hpiece : pieceAt .plain c more.head? = some (.char c) := by
    simp only [pieceAt, if_neg hnext, if_neg hc, hsolid, Bool.false_eq_true, if_false]
  have hafter : Mode.plain.after c more.head? = .plain := by
    simp only [Mode.after, if_neg hnext, hq, Bool.false_eq_true, if_false]
  obtain ⟨hpieces, hmode⟩ := piecesFrom_of_isInert h
  refine ⟨?_, ?_, ⟨c, more, rfl, hsolid⟩, ?_⟩
  · rw [piecesFrom_cons, hpiece, hafter, hpieces]
    rfl
  · rw [modeAfter_cons, hafter, hmode]
  · cases hlast : more.getLast? with
    | none =>
      obtain rfl := List.getLast?_eq_none_iff.mp hlast
      exact ⟨[], c, rfl, hsolid⟩
    | some d =>
      obtain ⟨front, rfl⟩ := List.getLast?_eq_some_iff.mp hlast
      exact ⟨c :: front, d, rfl, isWhitespace_of_isInert (h d (by simp))⟩

/-! ## The text that the splitter makes of such a text -/

/-- The text of a script without a stop, with a space in front if whitespace was there. -/
def settle (script : List Char) : List Char :=
  Text.trimEnd (spaced (piecesFrom .plain script))

/-- A word that stands by itself is copied. -/
theorem settle_append {word : List Char} (h : Standalone word) {back : List Char}
    (hb : word.getLast? ≠ some '-' ∨ back.head? ≠ some '-') :
    settle (word ++ back) = word ++ settle back := by
  obtain ⟨front, c, hword, hc⟩ := h.last
  rw [settle, h.piecesFrom_append hb, spaced_word h.ne_nil, hword, List.append_assoc,
    List.singleton_append, Text.trimEnd_append hc, List.append_assoc]
  rfl

/-- Behind a quote that is not closed everything is copied. -/
theorem piecesFrom_open {quote : Char} {text : List Char} (h : quote ∉ text) :
    piecesFrom (.quoted quote) text = text.map .char ∧
      modeAfter (.quoted quote) text = .quoted quote := by
  induction text with
  | nil => exact ⟨rfl, rfl⟩
  | cons c rest ih =>
    have hc : c ≠ quote := fun he => h (he ▸ List.mem_cons_self)
    have hafter : (Mode.quoted quote).after c rest.head? = .quoted quote := if_neg hc
    have hrest := ih fun hm => h (List.mem_cons_of_mem c hm)
    rw [piecesFrom_cons, modeAfter_cons, hafter, hrest.1, hrest.2]
    exact ⟨rfl, rfl⟩

/-- A quote is a character of a statement, and the scan is inside quotes behind it. -/
theorem pieceAt_of_isQuote {quote : Char} (hq : isQuote quote = true) (next : Option Char) :
    pieceAt .plain quote next = some (.char quote) ∧
      Mode.plain.after quote next = .quoted quote ∧ quote ≠ ';' ∧ quote ≠ '-' := by
  have hspecial : quote ≠ '-' ∧ quote ≠ ';' ∧ Text.isWhitespace quote = false := by
    simp only [isQuote, Bool.or_eq_true, beq_iff_eq] at hq
    rcases hq with rfl | rfl
    · decide
    · decide
  exact ⟨by simp [pieceAt, hspecial], by simp [Mode.after, hspecial, hq], hspecial.2.1, hspecial.1⟩

/-- Quoted text does not end with a dash. -/
theorem getLast?_quoted_ne_dash {quote : Char} (hq : isQuote quote = true)
    (content : List Char) : (quote :: content ++ [quote]).getLast? ≠ some '-' := by
  rw [List.getLast?_append, List.getLast?_singleton]
  exact fun hd => (pieceAt_of_isQuote hq none).2.2.2 (Option.some.inj hd)

/-- Quoted text in front of such a text makes another one, whatever it holds. -/
theorem Unbroken.quoted {back : List Char} (h : Unbroken .plain back) {quote : Char}
    (hq : isQuote quote = true) {content : List Char} (hfree : quote ∉ content) :
    Unbroken .plain (quote :: content ++ [quote] ++ back) := by
  refine h.append (standalone_quoted hq hfree).mode (.inl (getLast?_quoted_ne_dash hq content)) ?_
  intro front d behind hsplit hplain
  obtain ⟨-, -, hstop, hdash⟩ := pieceAt_of_isQuote hq none
  cases front with
  | nil =>
    obtain ⟨rfl, -⟩ := List.cons.inj hsplit
    exact ⟨hstop, fun hd => absurd hd hdash⟩
  | cons e inside =>
    -- Behind the first quote and in front of the second the scan is inside quotes.
    obtain ⟨rfl, hinside⟩ := List.cons.inj hsplit
    have hopen := piecesFrom_open (Lexeme.not_mem_of_quoted hfree hinside)
    rw [modeAfter_cons, (pieceAt_of_isQuote hq inside.head?).2.1, hopen.2] at hplain
    cases hplain

/-- Inert characters behind a character that breaks nothing make another such text. -/
theorem Unbroken.cons {back : List Char} (h : Unbroken .plain back) {c : Char}
    {more : List Char} (hq : isQuote c = false) (hsolid : Text.isWhitespace c = false)
    (hstop : c ≠ ';') (hdash : c = '-' → (more ++ back).head? ≠ some '-')
    (hinert : ∀ d ∈ more, isInert d = true) : Unbroken .plain (c :: more ++ back) := by
  refine h.append (standalone_cons hq hstop hsolid hinert).mode (joint_of_isInert hdash hinert) ?_
  intro front d behind hsplit _
  cases front with
  | nil =>
    obtain ⟨rfl, rfl⟩ := List.cons.inj hsplit
    exact ⟨hstop, hdash⟩
  | cons e inside =>
    obtain ⟨-, hinside⟩ := List.cons.inj hsplit
    have hd := hinert d (hinside ▸ List.mem_append_right inside List.mem_cons_self)
    constructor
    · rintro rfl
      exact absurd hd (by decide)
    · rintro rfl
      exact absurd hd (by decide)

/-- A quote that is not closed keeps all that is behind it, apart from whitespace at the end.
-/
theorem settle_open {quote : Char} (hq : isQuote quote = true) {rest : List Char}
    (h : quote ∉ rest) : settle (quote :: rest) = quote :: Text.trimEnd rest := by
  obtain ⟨hpiece, hafter, -, -⟩ := pieceAt_of_isQuote hq rest.head?
  have hpieces : piecesFrom .plain (quote :: rest) = (quote :: rest).map .char := by
    rw [piecesFrom_cons, hpiece, hafter, (piecesFrom_open h).1]
    rfl
  have hspaced := spaced_word (List.cons_ne_nil quote rest) []
  rw [List.append_nil] at hspaced
  have htext : spaced ((quote :: rest).map .char) = quote :: rest := by
    rw [hspaced]
    simp [spaced, join]
  rw [settle, hpieces, htext, Text.trimEnd_cons,
    if_neg (by simp [isWhitespace_of_pieceAt hpiece])]

end Script

/-! ## What the lexer finds in it -/

open Script (Unbroken piecesFrom settle join spaced)

/-- A space that the splitter puts in front of a text makes no difference to the lexer. -/
theorem findings_spaced (pieces : List Script.Piece) :
    findings (Text.trimEnd (spaced pieces)) = findings (Text.trimEnd (join pieces)) := by
  obtain hsame | ⟨_, hspace⟩ := Script.spaced_cases pieces
  · rw [hsame]
  · rw [hspace, Text.trimEnd_cons]
    split
    next hempty => rw [hempty.1]
    next => exact findings_of_isWhitespace (by decide) _

/-- Whitespace in front makes no difference to what is found in the settled text. -/
theorem findings_settle_of_isWhitespace {c : Char} (hc : Text.isWhitespace c = true)
    (rest : List Char) : findings (settle (c :: rest)) = findings (settle rest) := by
  rw [settle, settle, Script.piecesFrom_of_isWhitespace hc, findings_spaced, findings_spaced,
    Script.join_gap]

/-- The text that the splitter makes of the rest begins as the rest does. -/
theorem alike_settle {text : List Char} (h : Unbroken .plain text) :
    Lexeme.Alike text (settle text) := by
  cases text with
  | nil => rfl
  | cons c rest =>
    obtain ⟨hstop, hcomment⟩ := h [] (c :: rest) rfl rfl
    obtain ⟨rfl, hnext, _⟩ | ⟨rfl, _⟩ | ⟨hc, hp, ha⟩ | ⟨hp, _⟩ :=
      Script.plain_cases c rest.head?
    · obtain ⟨more, rfl⟩ := List.head?_eq_some_iff.mp hnext
      exact absurd ⟨more, rfl⟩ hcomment
    · exact absurd rfl hstop
    · have hleft : (c :: rest).head?.filter (fun d => !Text.isWhitespace d) = none := by
        simp [Option.filter, hc]
      rw [Lexeme.Alike, hleft, settle, Script.piecesFrom_of_isWhitespace hc, spaced]
      split
      · rfl
      · rw [Text.trimEnd_cons]
        split
        · rfl
        · rfl
    · have hsolid := Script.isWhitespace_of_pieceAt hp
      rw [settle, Script.piecesFrom_cons, hp, Option.toList_some, List.singleton_append,
        Script.spaced_char, Text.trimEnd_cons, if_neg (by simp [hsolid])]
      rfl

/-- At something unquoted the same is found in front of texts that begin alike and in
which the same is found. -/
theorem findingsAt_congr {c : Char} (hc : Script.isQuote c = false) {front back other : List Char}
    (h : (Lexeme.read c (front ++ back)).more = front.length) (ha : Lexeme.Alike back other)
    (hf : findings other = findings back) :
    findingsAt c (front ++ other) = findingsAt c (front ++ back) := by
  have hread := Lexeme.read_congr hc h ha
  rw [findingsAt, findingsAt, hread]
  cases hr : Lexeme.read c (front ++ back) with
  | token token more =>
    obtain rfl : more = front.length := by
      rw [hr] at h
      exact h
    simp only [List.drop_left, hf]
  | stray => rfl
  | badNumber more =>
    obtain rfl : more = front.length := by
      rw [hr] at h
      exact h
    simp only [List.take_left]
  | openQuote => rfl

/-- What is found in front of a text in quotes that are closed. -/
theorem findings_quoted {quote : Char} (hq : Script.isQuote quote = true) {content : List Char}
    (hfree : quote ∉ content) (text : List Char) :
    findings (quote :: content ++ [quote] ++ text) =
      (.literal (.text (String.ofList content)) :: (findings text).1, (findings text).2) := by
  have hwhole : quote :: content ++ [quote] ++ text = quote :: (content ++ quote :: text) := by
    simp
  have hdrop : (content ++ quote :: text).drop (content.length + 1) = text := by
    rw [← List.drop_drop, List.drop_left]
    rfl
  have hsolid := Script.isWhitespace_of_pieceAt (Script.pieceAt_of_isQuote hq none).1
  rw [hwhole, findings_cons hsolid, findingsAt, Lexeme.read_of_isQuote hq,
    Lexeme.quoted_of_closed hfree]
  simp only [hdrop]

/-- In front of an open quote the lexer finds the same error in the settled text as in the
text. -/
theorem findings_settle_open {quote : Char} (hq : Script.isQuote quote = true)
    {rest : List Char} (hfree : quote ∉ rest) :
    findings (settle (quote :: rest)) = findings (quote :: rest) := by
  have hfree' : quote ∉ Text.trimEnd rest := fun hm => hfree (Text.mem_of_mem_trimEnd hm)
  have hsolid := Script.isWhitespace_of_pieceAt (Script.pieceAt_of_isQuote hq none).1
  rw [Script.settle_open hq hfree, findings_cons hsolid, findings_cons hsolid, findingsAt,
    findingsAt, Lexeme.read_of_isQuote hq, Lexeme.read_of_isQuote hq,
    Lexeme.quoted_of_open hfree, Lexeme.quoted_of_open hfree']

/-- If the same is found behind something unquoted, the same is found from there on. -/
theorem findings_settle_unquoted {c : Char} {rest : List Char}
    (hsolid : Text.isWhitespace c = false) (hq : Script.isQuote c = false)
    (h : Unbroken .plain (c :: rest))
    (ih : Unbroken .plain (rest.drop (Lexeme.read c rest).more) →
      findings (settle (rest.drop (Lexeme.read c rest).more)) =
        findings (rest.drop (Lexeme.read c rest).more)) :
    findings (settle (c :: rest)) = findings (c :: rest) := by
  have hmore := Lexeme.more_read_le hq rest
  have hinert := fun d hd => (Lexeme.isInert_of_read hq rest d hd).1
  have hrest := List.take_append_drop (Lexeme.read c rest).more rest
  generalize hfront : rest.take (Lexeme.read c rest).more = front at hrest hinert
  generalize rest.drop (Lexeme.read c rest).more = back at hrest ih
  have hlength : (Lexeme.read c (front ++ back)).more = front.length := by
    rw [hrest, ← hfront, List.length_take, Nat.min_eq_left hmore]
  subst hrest
  have hjoint := Script.joint_of_isInert h.head.2 hinert
  have hword := Script.standalone_cons hq h.head.1 hsolid hinert
  have hbehind : Unbroken .plain back :=
    hword.mode ▸ @Unbroken.of_append .plain (c :: front) back h hjoint
  have hsettle := Script.settle_append hword hjoint
  rw [List.cons_append] at hsettle
  rw [hsettle, List.cons_append, findings_cons hsolid, findings_cons hsolid,
    findingsAt_congr hq hlength (alike_settle hbehind) (ih hbehind)]

/-- Of a text without semicolons and comments outside quotes the splitter makes one in
which the lexer finds the same. -/
theorem findings_settle {text : List Char} (h : Unbroken .plain text) :
    findings (settle text) = findings text := by
  induction hn : text.length using Nat.strong_induction_on generalizing text with
  | _ n ih =>
    cases text with
    | nil => rfl
    | cons c rest =>
      rw [List.length_cons] at hn
      by_cases hc : Text.isWhitespace c = true
      · have hne := Text.ne_of_isWhitespace hc
        have hmode : Script.modeAfter .plain [c] = .plain := by
          simp [Script.modeAfter, Script.Mode.after, isQuote_of_isWhitespace hc, hne]
        have hrest : Unbroken .plain rest :=
          hmode ▸ @Unbroken.of_append .plain [c] rest h (.inl (by simp [hne]))
        rw [findings_settle_of_isWhitespace hc, findings_of_isWhitespace hc,
          ih rest.length (by omega) hrest rfl]
      rw [Bool.not_eq_true] at hc
      by_cases hq : Script.isQuote c = true
      · obtain ⟨hfree, _⟩ | ⟨content, back, rfl, hfree, _, _⟩ := Lexeme.quoted_cases c rest
        · exact findings_settle_open hq hfree
        · have hwhole : c :: (content ++ c :: back) = c :: content ++ [c] ++ back := by simp
          have hword := Script.standalone_quoted hq hfree
          have hlast := Script.getLast?_quoted_ne_dash hq content
          rw [hwhole] at h ⊢
          have hback : Unbroken .plain back := hword.mode ▸ h.of_append (.inl hlast)
          rw [Script.settle_append hword (.inl hlast), findings_quoted hq hfree,
            findings_quoted hq hfree, ih back.length (by simp at hn; omega) hback rfl]
      · rw [Bool.not_eq_true] at hq
        refine findings_settle_unquoted hc hq h fun hback => ?_
        exact ih _ (by rw [List.length_drop]; omega) hback rfl

/-! ## Texts that the parser accepts -/

/-- A token that is in no entry of a list and not between them is not in the whole. -/
theorem not_mem_intercalate {token : Token} {between : List Token} {entries : List (List Token)}
    (hbetween : token ∉ between) (h : ∀ entry ∈ entries, token ∉ entry) :
    token ∉ between.intercalate entries := by
  induction entries with
  | nil => exact List.not_mem_nil
  | cons entry rest ih =>
    obtain ⟨hentry, hrest⟩ := List.forall_mem_cons.mp h
    cases rest with
    | nil => rwa [List.intercalate_singleton]
    | cons next others =>
      rw [List.intercalate_cons_cons, List.mem_append, List.mem_append, not_or, not_or]
      exact ⟨⟨hentry, hbetween⟩, ih hrest⟩

/-- No statement is written with a minus sign. -/
theorem minus_not_mem_tokens {s : Statement} (h : s.WellFormed) :
    Token.operator .minus ∉ s.tokens := by
  have hcommas {entries : List (List Token)}
      (he : ∀ entry ∈ entries, Token.operator .minus ∉ entry) :
      Token.operator .minus ∉ commas entries := not_mem_intercalate (by simp) he
  have hfields (choice : Fields) : Token.operator .minus ∉ choice.tokens := by
    cases choice with
    | all => simp [Fields.tokens]
    | named list => exact hcommas (by simp)
  have hreturning (choice : Fields) : Token.operator .minus ∉ returningTokens choice := by
    unfold returningTokens
    split
    · exact List.not_mem_nil
    · simp [hfields]
  have hwhere {groups : Conditions} (hw : Conditions.WellFormed groups) :
      Token.operator .minus ∉ whereTokens groups := by
    have hgroups : Token.operator .minus ∉ conditionTokens groups := by
      refine not_mem_intercalate (by simp) (List.forall_mem_map.mpr fun group hgroup => ?_)
      refine not_mem_intercalate (by simp) (List.forall_mem_map.mpr fun c hc => ?_)
      have hoperator := (hw group hgroup).2 c hc
      -- An operator between a column and a value is one of the six comparisons.
      have hne : Operator.minus ≠ c.operator := by
        intro he
        rw [← he] at hoperator
        exact absurd hoperator (by decide)
      simp [Condition.tokens, hne]
    unfold whereTokens
    split
    · exact List.not_mem_nil
    · simp [hgroups]
  have hparenthesized {entries : List (List Token)}
      (he : ∀ entry ∈ entries, Token.operator .minus ∉ entry) :
      Token.operator .minus ∉ parenthesized entries := by
    simp [parenthesized, hcommas he]
  cases s with
  | select s => simp [Statement.tokens, hfields, hwhere h.2]
  | insert s =>
    have hlisted : Token.operator .minus ∉ listedTokens s.fields := by
      unfold listedTokens
      split
      · exact List.not_mem_nil
      · exact hparenthesized (by simp)
    have htuples : Token.operator .minus ∉ commas (s.tuples.map tupleTokens) :=
      hcommas (List.forall_mem_map.mpr fun tuple _ => hparenthesized (by simp))
    simp [Statement.tokens, hlisted, htuples, hreturning]
  | update s =>
    have hassignments : Token.operator .minus ∉ commas (s.assignments.map Assignment.tokens) :=
      hcommas (List.forall_mem_map.mpr fun a _ => by simp [Assignment.tokens])
    simp [Statement.tokens, hassignments, hwhere h.2, hreturning]
  | delete s => simp [Statement.tokens, hwhere h, hreturning]
  | create s =>
    have hcolumns : Token.operator .minus ∉ parenthesized (s.columns.map Column.tokens) :=
      hparenthesized (List.forall_mem_map.mpr fun c _ => by simp [Column.tokens])
    have hflag : Token.operator .minus ∉ ifNotExistsTokens s.ifNotExists := by
      unfold ifNotExistsTokens
      split <;> simp
    simp [Statement.tokens, hflag, hcolumns]
  | drop s =>
    have hflag : Token.operator .minus ∉ ifExistsTokens s.ifExists := by
      unfold ifExistsTokens
      split <;> simp
    simp [Statement.tokens, hflag]

/-- A text that the lexer accepts without a minus sign has neither a semicolon nor a
comment outside quotes. -/
theorem unbroken_of_findings {text : List Char} (h : (findings text).2 = none)
    (hminus : Token.operator .minus ∉ (findings text).1) : Unbroken .plain text := by
  -- By induction along the lexer: whitespace is skipped, and a token is what is read at once.
  induction text using lexing with
  | nil =>
    intro front back hsplit _
    obtain ⟨-, rfl⟩ := List.append_eq_nil_iff.mp hsplit.symm
    exact ⟨by simp, by simp⟩
  | space c rest hc ih =>
    rw [findings_of_isWhitespace hc] at h hminus
    have hne := Text.ne_of_isWhitespace hc
    refine @Unbroken.append [c] rest (ih h hminus) ?_ (.inl (by simp [hne]))
      fun front d behind hsplit _ => ?_
    · simp [Script.modeAfter, Script.Mode.after, isQuote_of_isWhitespace hc, hne]
    · obtain rfl : d = c := List.mem_singleton.mp (hsplit ▸ List.mem_append_right front
        List.mem_cons_self)
      exact ⟨hne.2.2.1, fun hd => absurd hd hne.2.2.2.1⟩
  | token c rest token more hc hread ih =>
    rw [findings_cons hc, findingsAt, hread] at h hminus
    obtain ⟨htoken, hrest⟩ := not_or.mp (List.mem_cons.not.mp hminus)
    have hbehind := ih h hrest
    by_cases hq : Script.isQuote c = true
    · rw [Lexeme.read_of_isQuote hq] at hread
      obtain ⟨_, hopen⟩ | ⟨content, back, rfl, hfree, hclosed, hdrop⟩ :=
        Lexeme.quoted_cases c rest
      · rw [hopen] at hread
        cases hread
      · obtain ⟨-, rfl⟩ := Lexeme.token.inj (hclosed.symm.trans hread)
        rw [hdrop] at hbehind
        have hwhole : c :: (content ++ c :: back) = c :: content ++ [c] ++ back := by simp
        rw [hwhole]
        exact hbehind.quoted hq hfree
    · rw [Bool.not_eq_true] at hq
      have hinert : ∀ d ∈ rest.take more, Script.isInert d = true := by
        have hbelongs := Lexeme.isInert_of_read hq rest
        rw [hread] at hbelongs
        exact fun d hd => (hbelongs d hd).1
      obtain ⟨hstop, -, hdash⟩ := Lexeme.front_of_read hread
      have hwhole := List.take_append_drop more rest
      -- A dash is the first character of a number here: alone it would be a minus sign, and a
      -- digit stands behind it.
      have hnext : c = '-' → (rest.take more ++ rest.drop more).head? ≠ some '-' := by
        rintro hc hd
        rw [hwhole] at hd
        rcases hdash hc with rfl | hdigit
        · exact htoken rfl
        · rw [hd] at hdigit
          cases hdigit
      have hunbroken := hbehind.cons hq hc hstop hnext hinert
      rwa [List.cons_append, hwhole] at hunbroken
  | stuck c rest hc hstuck =>
    rw [findings_cons hc, findingsAt] at h
    split at h
    next token more hread => exact absurd hread (hstuck token more)
    all_goals cases h

/-! ## The two ways of reading -/

/-- Nothing is found in a text if and only if it is all whitespace. -/
theorem findings_eq_nil_iff {text : List Char} :
    findings text = ([], none) ↔ ∀ c ∈ text, Text.isWhitespace c = true := by
  induction text with
  | nil => exact ⟨fun _ => List.forall_mem_nil _, fun _ => rfl⟩
  | cons c rest ih =>
    rw [List.forall_mem_cons]
    by_cases hc : Text.isWhitespace c = true
    · rw [findings_of_isWhitespace hc, ih]
      exact ⟨fun h => ⟨hc, h⟩, And.right⟩
    · rw [findings_cons (Bool.not_eq_true _ ▸ hc), findingsAt]
      refine ⟨fun h => ?_, fun h => absurd h.1 hc⟩
      split at h
      all_goals cases h

/-- The splitter makes nothing of a text that is all whitespace, and one statement of any
other text without semicolons and comments outside quotes. The lexer finds in it what it
finds in the text. -/
theorem statements_of_unbroken {text : List Char} (h : Unbroken .plain text) :
    ((∀ c ∈ text, Text.isWhitespace c = true) → Script.statements text = []) ∧
      ((∃ c ∈ text, Text.isWhitespace c = false) →
        ∃ statement, Script.statements text = [statement] ∧
          findings statement = findings text) := by
  have hfound : findings (Text.trimEnd (join (piecesFrom .plain text))) = findings text := by
    rw [← findings_spaced]
    exact findings_settle h
  rw [Script.statements_eq_of_no_stop h.stop_not_mem]
  by_cases hempty : Text.trimEnd (join (piecesFrom .plain text)) = []
  · rw [if_pos hempty]
    refine ⟨fun _ => rfl, fun ⟨c, hmem, hc⟩ => ?_⟩
    rw [hempty, findings_nil] at hfound
    have hblank := findings_eq_nil_iff.mp hfound.symm c hmem
    rw [hc] at hblank
    cases hblank
  · rw [if_neg hempty]
    refine ⟨fun hblank => ?_, fun _ => ⟨_, rfl, hfound⟩⟩
    obtain ⟨front, c, hlast, hc⟩ := Script.last_trimEnd hempty
    rw [findings_eq_nil_iff.mpr hblank] at hfound
    have hspace := findings_eq_nil_iff.mp hfound c
      (by rw [hlast]; exact List.mem_append_right front List.mem_cons_self)
    rw [hc] at hspace
    cases hspace

/-- A text that is read as a statement is a script of one statement, which is read as the
same one. -/
theorem parseScript_of_findings {text : List Char} {s : Statement}
    (h : parseStatement text = .ok s) : parseScript text = .ok [s] := by
  unfold parseStatement at h
  split at h
  next => cases h
  next tokens htokens =>
    have hread := Result.mapError_eq_ok_iff.mp h
    obtain ⟨hformed, rfl⟩ := Parser.eq_of_whole (Result.mapError_eq_ok_iff.mp hread)
    have hfindings := tokenize_eq_ok_iff_findings.mp htokens
    have hunbroken : Unbroken .plain text :=
      unbroken_of_findings (by rw [hfindings])
        (by rw [hfindings]; exact minus_not_mem_tokens hformed)
    have hsolid : ∃ c ∈ text, Text.isWhitespace c = false := by
      by_contra hnone
      have hblank : ∀ c ∈ text, Text.isWhitespace c = true := by
        simpa using hnone
      rw [findings_eq_nil_iff.mpr hblank] at hfindings
      rw [← (Prod.mk.inj hfindings).1] at hread
      cases hread
    obtain ⟨statement, hstatements, hsame⟩ := (statements_of_unbroken hunbroken).2 hsolid
    have hstatement : parseStatement statement = .ok s := by
      rw [parseStatement, tokenize_eq_ok_iff_findings.mpr (hsame.trans hfindings)]
      exact h
    rw [parseScript, hstatements, List.mapM_cons, hstatement]
    rfl

/-- In a text that has neither a semicolon nor a comment outside quotes the lexer finds
the same as in the one statement that the splitter makes of it, which is none for a text
that is all whitespace: the same tokens, and the same error up to where it is. Any text
that is read as a statement directly is also read as a script of that one statement. -/
theorem direct_reading :
    (∀ text, Unbroken .plain text →
      ((∀ c ∈ text, Text.isWhitespace c = true) →
        Script.statements text = [] ∧ lexemes text = ([], none)) ∧
      ((∃ c ∈ text, Text.isWhitespace c = false) →
        ∃ statement, Script.statements text = [statement] ∧
          (lexemes statement).1 = (lexemes text).1 ∧
          (lexemes statement).2.map LexicalError.unplaced =
            (lexemes text).2.map LexicalError.unplaced)) ∧
    ∀ text s, parseStatement text = .ok s → parseScript text = .ok [s] := by
  refine ⟨fun text h => ?_, fun text s => parseScript_of_findings⟩
  obtain ⟨hblank, hsolid⟩ := statements_of_unbroken h
  refine ⟨fun hall => ⟨hblank hall, ?_⟩, fun hsome => ?_⟩
  · obtain ⟨htokens, herror⟩ := Prod.mk.inj (findings_eq_nil_iff.mpr hall)
    exact Prod.ext htokens (Option.map_eq_none_iff.mp herror)
  · obtain ⟨statement, hstatements, hsame⟩ := hsolid hsome
    exact ⟨statement, hstatements, Prod.mk.inj hsame⟩

/-- A text with a comment sign in quotes and a stray character, and one that is read. -/
theorem direct_reading_of_stray :
    let text : List Char := "SELECT '--;'\t  ?".toList
    let other : List Char := "DROP\n TABLE t".toList
    (Unbroken .plain text ∧ parseStatement other = .ok (.drop ⟨"t", false⟩)) ∧
    (∃ statement, Script.statements text = [statement] ∧
      (lexemes statement).1 = (lexemes text).1 ∧
      (lexemes statement).2.map LexicalError.unplaced =
        (lexemes text).2.map LexicalError.unplaced) ∧
    parseScript other = .ok [.drop ⟨"t", false⟩] := by
  intro text other
  have hunbroken : Unbroken .plain text := by decide +kernel
  have hread : parseStatement other = .ok (.drop ⟨"t", false⟩) := by decide +kernel
  exact ⟨⟨hunbroken, hread⟩,
    (direct_reading.1 text hunbroken).2 ⟨'S', by decide, by decide⟩,
    direct_reading.2 other _ hread⟩

end EmbeddedSql.Sql
