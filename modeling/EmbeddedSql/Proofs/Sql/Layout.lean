import EmbeddedSql.Proofs.Sql.Spelling

/-!
# Layouts of scripts

Lists of tokens can be laid out as a script in many ways: every token in any of
its spellings, whitespace and comments between them, semicolons behind the lists,
empty statements anywhere. Whatever the layout, the splitter and the lexer bring
back the lists.
-/

namespace EmbeddedSql.Sql

/-- Whitespace and comments, each comment with the line break that ends it. -/
inductive Blank : List Char → Prop
  | nil : Blank []
  | space {c : Char} {rest : List Char} (space : Text.isWhitespace c = true) (more : Blank rest) :
      Blank (c :: rest)
  | comment {comment rest : List Char} (line : '\n' ∉ comment) (more : Blank rest) :
      Blank ('-' :: '-' :: comment ++ '\n' :: rest)

/-- What separates two tokens: a whitespace character and then any blank. -/
inductive Separator : List Char → Prop
  | mk {c : Char} {rest : List Char} (space : Text.isWhitespace c = true) (more : Blank rest) :
      Separator (c :: rest)

/-- What may follow the last token of a list. -/
inductive Tail : List Char → Prop
  | nil : Tail []
  | separator {text : List Char} (separator : Separator text) : Tail text

/-- The layouts of a list of tokens. -/
inductive Line : List Token → List Char → Prop
  | one {token : Token} {word : List Char} (spells : Spells token word) : Line [token] word
  | cons {token : Token} {word separator text : List Char} {tokens : List Token}
      (spells : Spells token word) (separated : Separator separator) (more : Line tokens text) :
      Line (token :: tokens) (word ++ (separator ++ text))

/-- The layouts of lists of tokens. -/
inductive Lays : List (List Token) → List Char → Prop
  /-- Nothing but whitespace and comments. -/
  | blank {text : List Char} (blank : Blank text) : Lays [] text
  /-- An empty statement in front. -/
  | empty {lists : List (List Token)} {front text : List Char} (blank : Blank front)
      (more : Lays lists text) : Lays lists (front ++ ';' :: text)
  /-- The last list, without a semicolon. -/
  | last {tokens : List Token} {front line tail : List Char} (blank : Blank front)
      (lays : Line tokens line) (ends : Tail tail) : Lays [tokens] (front ++ (line ++ tail))
  /-- A list with its semicolon. -/
  | cons {tokens : List Token} {lists : List (List Token)} {front line tail text : List Char}
      (blank : Blank front) (lays : Line tokens line) (ends : Tail tail) (more : Lays lists text) :
      Lays (tokens :: lists) (front ++ (line ++ (tail ++ ';' :: text)))

/-! ## Blanks -/

namespace Script

/-- Pieces that separate and stand for nothing. -/
def Gaps (pieces : List Piece) : Prop :=
  ∀ piece ∈ pieces, piece = .gap

/-- Gaps in front of a text are left out. -/
theorem Gaps.join {pieces : List Piece} (h : Gaps pieces) (more : List Piece) :
    join (pieces ++ more) = Script.join more := by
  induction pieces with
  | nil => rfl
  | cons piece rest ih =>
    rw [h piece List.mem_cons_self, List.cons_append, join_gap]
    exact ih fun piece hp => h piece (List.mem_cons_of_mem _ hp)

/-- Gaps end no statement. -/
theorem Gaps.stop_not_mem {pieces : List Piece} (h : Gaps pieces) : .stop ∉ pieces := by
  intro hm
  cases h _ hm

/-- Outside quotes whitespace is a gap. -/
theorem piecesFrom_of_isWhitespace {c : Char} (h : Text.isWhitespace c = true) (back : List Char) :
    piecesFrom .plain (c :: back) = .gap :: piecesFrom .plain back := by
  have hne := Text.ne_of_isWhitespace h
  rw [piecesFrom_cons]
  obtain ⟨hc, _⟩ | ⟨hc, _⟩ | ⟨_, hp, ha⟩ | ⟨hp, _⟩ := plain_cases c back.head?
  · exact absurd hc hne.2.2.2.1
  · exact absurd hc hne.2.2.1
  · rw [hp, ha]
    rfl
  · simp [pieceAt, hne, h] at hp

/-- A blank is scanned into gaps, whatever follows it. -/
theorem exists_gaps_of_blank {text : List Char} (h : Blank text) :
    ∃ gaps, Gaps gaps ∧
      ∀ back, piecesFrom .plain (text ++ back) = gaps ++ piecesFrom .plain back := by
  induction h with
  | nil => exact ⟨[], fun _ hm => absurd hm List.not_mem_nil, fun _ => rfl⟩
  | @space c rest space more ih =>
    obtain ⟨gaps, hgaps, hpieces⟩ := ih
    refine ⟨.gap :: gaps, List.forall_mem_cons.mpr ⟨rfl, hgaps⟩, fun back => ?_⟩
    rw [List.cons_append, piecesFrom_of_isWhitespace space, hpieces]
    rfl
  | @comment comment rest line more ih =>
    obtain ⟨gaps, hgaps, hpieces⟩ := ih
    refine ⟨.gap :: gaps, List.forall_mem_cons.mpr ⟨rfl, hgaps⟩, fun back => ?_⟩
    have hwhole : '-' :: '-' :: comment ++ '\n' :: rest ++ back =
        '-' :: '-' :: (comment ++ '\n' :: (rest ++ back)) := by simp
    rw [hwhole]
    change Piece.gap :: piecesFrom .comment (comment ++ '\n' :: (rest ++ back)) = _
    rw [piecesFrom_comment line]
    change Piece.gap :: piecesFrom .plain (rest ++ back) = _
    rw [hpieces]
    rfl

/-- So is what may follow the last token, and it does not run into a comment. -/
theorem exists_gaps_of_tail {text : List Char} (h : Tail text) :
    ∃ gaps, Gaps gaps ∧
      (∀ back, piecesFrom .plain (text ++ back) = gaps ++ piecesFrom .plain back) ∧
      ∀ back : List Char, back.head? ≠ some '-' → (text ++ back).head? ≠ some '-' := by
  cases h with
  | nil => exact ⟨[], fun _ hm => absurd hm List.not_mem_nil, fun _ => rfl, fun _ hb => hb⟩
  | separator separator =>
    obtain ⟨space, more⟩ := separator
    obtain ⟨gaps, hgaps, hpieces⟩ := exists_gaps_of_blank (.space space more)
    refine ⟨gaps, hgaps, hpieces, fun back _ he => ?_⟩
    exact (Text.ne_of_isWhitespace space).2.2.2.1 (Option.some.inj he)

/-! ## Lines -/

/-- Gaps at the end of a text are left out. -/
theorem Gaps.spaced {pieces : List Piece} (h : Gaps pieces) : spaced pieces = [] := by
  cases pieces with
  | nil => rfl
  | cons piece rest =>
    obtain rfl : piece = .gap := h piece List.mem_cons_self
    have hrest : Gaps rest := fun piece hp => h piece (List.mem_cons_of_mem _ hp)
    have hjoin := hrest.join []
    rw [List.append_nil] at hjoin
    exact if_pos hjoin

end Script

/-- A text that neither begins nor ends with whitespace. -/
structure Trimmed (text : List Char) : Prop where
  first : ∃ c rest, text = c :: rest ∧ Text.isWhitespace c = false
  last : ∃ front c, text = front ++ [c] ∧ Text.isWhitespace c = false

/-- Trimming leaves a trimmed text as it is. -/
theorem Trimmed.trim_eq {text : List Char} (h : Trimmed text) : Text.trim text = text := by
  obtain ⟨c, rest, hfirst, hc⟩ := h.first
  obtain ⟨front, d, hlast, hd⟩ := h.last
  have hstart : Text.trimStart text = text := by
    rw [hfirst]
    exact Text.trimStart_of_not_isWhitespace hc rest
  rw [Text.trim, hstart, hlast, Text.trimEnd_append hd]
  rfl

/-- A trimmed text is not empty. -/
theorem Trimmed.ne_nil {text : List Char} (h : Trimmed text) : text ≠ [] := by
  obtain ⟨c, rest, rfl, _⟩ := h.first
  exact List.cons_ne_nil c rest

/-- A spelling in front of a space is read as its token. -/
theorem Spells.tokens?_space {token : Token} {word : List Char} (h : Spells token word)
    (text : List Char) : tokens? (word ++ ' ' :: text) = (tokens? text).map (token :: ·) := by
  obtain ⟨c, rest, rfl, hc⟩ := h.standalone.first
  have hread : Token.read? c (rest ++ ' ' :: text) = some (token, rest.length) := by
    refine h.read? fun d hd => ?_
    obtain rfl := Option.some.inj hd
    decide
  rw [tokens?, List.cons_append, scan_of_read hc hread, List.drop_left,
    scan_of_isWhitespace _ (by decide)]
  rfl

/-- A spelling at the end of a text is read as its token. -/
theorem Spells.tokens?_end {token : Token} {word : List Char} (h : Spells token word) :
    tokens? word = some [token] := by
  obtain ⟨c, rest, rfl, hc⟩ := h.standalone.first
  have hread : Token.read? c (rest ++ []) = some (token, rest.length) :=
    h.read? fun d hd => by cases hd
  rw [List.append_nil] at hread
  rw [tokens?, scan_of_read hc hread, List.drop_length]
  rfl

open Script (Piece Gaps piecesFrom groups join spaced) in
/-- A line is scanned into pieces without a stop, and whatever gaps follow them,
they make up a text with the line's tokens. -/
theorem Line.exists_pieces {tokens : List Token} {line : List Char} (h : Line tokens line) :
    ∃ pieces text, .stop ∉ pieces ∧ Trimmed text ∧ tokens? text = some tokens ∧
      (∀ back : List Char, back.head? ≠ some '-' →
        piecesFrom .plain (line ++ back) = pieces ++ piecesFrom .plain back) ∧
      ∀ gaps, Gaps gaps → join (pieces ++ gaps) = text := by
  induction h with
  | @one token word spells =>
    have hword := spells.standalone
    refine ⟨word.map .char, word, by simp, ⟨hword.first, hword.last⟩, spells.tokens?_end,
      fun back hb => hword.piecesFrom_append (.inr hb), fun gaps hgaps => ?_⟩
    rw [Script.join_word hword.ne_nil, hgaps.spaced, List.append_nil]
  | @cons token word separator line tokens spells separated more ih =>
    obtain ⟨pieces, text, hstop, htrimmed, htokens, hpieces, hjoin⟩ := ih
    obtain @⟨c, rest, space, blank⟩ := separated
    obtain ⟨between, hbetween, hseparator⟩ := Script.exists_gaps_of_blank blank
    have hword := spells.standalone
    have hnodash := (Text.ne_of_isWhitespace space).2.2.2.1
    refine ⟨word.map .char ++ (.gap :: (between ++ pieces)), word ++ ' ' :: text, ?_, ⟨?_, ?_⟩, ?_,
      fun back hb => ?_, fun gaps hgaps => ?_⟩
    · simp [hbetween.stop_not_mem, hstop]
    · obtain ⟨c, rest, rfl, hc⟩ := hword.first
      exact ⟨c, _, rfl, hc⟩
    · obtain ⟨front, c, rfl, hc⟩ := htrimmed.last
      exact ⟨word ++ ' ' :: front, c, by simp, hc⟩
    · rw [spells.tokens?_space, htokens]
      rfl
    · have hnext : (c :: rest ++ (line ++ back)).head? ≠ some '-' := fun he =>
        hnodash (Option.some.inj he)
      rw [List.append_assoc, List.append_assoc, hword.piecesFrom_append (.inr hnext),
        List.cons_append, Script.piecesFrom_of_isWhitespace space, hseparator,
        hpieces back hb]
      simp
    · have hrest : join (between ++ (pieces ++ gaps)) = text := by
        rw [hbetween.join, hjoin gaps hgaps]
      rw [List.append_assoc, Script.join_word hword.ne_nil, List.cons_append, List.append_assoc]
      -- The gaps between two words are one space, as something stands behind them.
      simp only [spaced, hrest, if_neg htrimmed.ne_nil]

open Script (Piece piecesFrom join) in
/-- A line with what stands around it is scanned into pieces without a stop that
make up a text with the line's tokens. -/
theorem Line.exists_statement {tokens : List Token} {front line tail : List Char}
    (h : Line tokens line) (blank : Blank front) (ends : Tail tail) :
    ∃ pieces, .stop ∉ pieces ∧ Trimmed (join pieces) ∧ tokens? (join pieces) = some tokens ∧
      ∀ back : List Char, back.head? ≠ some '-' →
        piecesFrom .plain (front ++ (line ++ (tail ++ back))) =
          pieces ++ piecesFrom .plain back := by
  obtain ⟨before, hbefore, hfront⟩ := Script.exists_gaps_of_blank blank
  obtain ⟨pieces, text, hstop, htrimmed, htokens, hline, hjoin⟩ := h.exists_pieces
  obtain ⟨behind, hbehind, htail, hdash⟩ := Script.exists_gaps_of_tail ends
  have htext : join (before ++ (pieces ++ behind)) = text := by
    rw [hbefore.join, hjoin behind hbehind]
  refine ⟨before ++ (pieces ++ behind), ?_, htext.symm ▸ htrimmed, htext.symm ▸ htokens,
    fun back hb => ?_⟩
  · simp [hbefore.stop_not_mem, hstop, hbehind.stop_not_mem]
  · rw [hfront, hline _ (hdash back hb), htail]
    simp

/-! ## Scripts -/

namespace Script

/-- The texts of the statements that pieces make up. -/
def texts (pieces : List Piece) : List (List Char) :=
  ((groups pieces).map fun group => Text.trim (join group)).filter fun text => !text.isEmpty

/-- Gaps hold no statement. -/
theorem texts_of_gaps {pieces : List Piece} (h : Gaps pieces) : texts pieces = [] := by
  have hjoin := h.join []
  rw [List.append_nil] at hjoin
  simp [texts, groups_of_not_mem h.stop_not_mem, hjoin, Text.trim, Text.trimStart, Text.trimEnd,
    join]

/-- An empty statement leaves no text. -/
theorem texts_gaps_stop {gaps : List Piece} (h : Gaps gaps) (pieces : List Piece) :
    texts (gaps ++ .stop :: pieces) = texts pieces := by
  have hjoin := h.join []
  rw [List.append_nil] at hjoin
  simp [texts, groups_stop h.stop_not_mem, hjoin, Text.trim, Text.trimStart, Text.trimEnd, join]

/-- The text of a statement stands in front of those behind its semicolon. -/
theorem texts_stop {front : List Piece} (h : .stop ∉ front) (htrimmed : Trimmed (join front))
    (pieces : List Piece) : texts (front ++ .stop :: pieces) = join front :: texts pieces := by
  simp [texts, groups_stop h, htrimmed.trim_eq, htrimmed.ne_nil]

/-- Pieces without a stop are one statement, the last one. -/
theorem texts_last {front : List Piece} (h : .stop ∉ front) (htrimmed : Trimmed (join front)) :
    texts front = [join front] := by
  simp [texts, groups_of_not_mem h, htrimmed.trim_eq, htrimmed.ne_nil]

/-- Outside quotes a semicolon is a stop. -/
theorem piecesFrom_semicolon (back : List Char) :
    piecesFrom .plain (';' :: back) = .stop :: piecesFrom .plain back := rfl

end Script

/-- The tokens of a list of texts are those of the first one in front of those of the others.
-/
theorem mapM_tokenize_cons {text : List Char} {tokens : List Token}
    (h : tokens? text = some tokens) {texts : List (List Char)} {lists : List (List Token)}
    (hrest : texts.mapM tokenize = .ok lists) :
    (text :: texts).mapM tokenize = .ok (tokens :: lists) := by
  rw [List.mapM_cons, tokenize_eq_ok_iff.mpr h, hrest]
  rfl

/-- Lists of tokens come back from every layout of theirs: the splitter finds as
many statements as there are lists, and the lexer finds in each the tokens of
its list. -/
theorem Lays.mapM_tokenize {lists : List (List Token)} {script : List Char}
    (h : Lays lists script) : (Script.statements script).mapM tokenize = .ok lists := by
  change (Script.texts (Script.piecesFrom .plain script)).mapM tokenize = .ok lists
  induction h with
  | @blank text blank =>
    obtain ⟨gaps, hgaps, hpieces⟩ := Script.exists_gaps_of_blank blank
    have hend := hpieces []
    rw [List.append_nil] at hend
    rw [hend, Script.piecesFrom, List.append_nil, Script.texts_of_gaps hgaps]
    rfl
  | @empty lists front text blank more ih =>
    obtain ⟨gaps, hgaps, hpieces⟩ := Script.exists_gaps_of_blank blank
    rw [hpieces, Script.piecesFrom_semicolon, Script.texts_gaps_stop hgaps]
    exact ih
  | @last tokens front line tail blank lays ends =>
    obtain ⟨pieces, hstop, htrimmed, htokens, hpieces⟩ := lays.exists_statement blank ends
    have hend := hpieces [] (by simp)
    rw [List.append_nil] at hend
    rw [hend, Script.piecesFrom, List.append_nil, Script.texts_last hstop htrimmed]
    exact mapM_tokenize_cons htokens rfl
  | @cons tokens lists front line tail text blank lays ends more ih =>
    obtain ⟨pieces, hstop, htrimmed, htokens, hpieces⟩ := lays.exists_statement blank ends
    rw [hpieces _ (by simp), Script.piecesFrom_semicolon, Script.texts_stop hstop htrimmed]
    exact mapM_tokenize_cons htokens ih

/-- A layout with an empty statement, a comment that holds a quote and a
semicolon, and a text that looks like a comment. -/
theorem Lays.mapM_tokenize_of_comment :
    Lays [[.keyword .select, .literal (.text "--;")], [.identifier "a"]]
        ";sElEcT --';\n\"--;\" ; a".toList ∧
      (Script.statements ";sElEcT --';\n\"--;\" ; a".toList).mapM tokenize =
        .ok [[.keyword .select, .literal (.text "--;")], [.identifier "a"]] := by
  have hselect : Spells (.keyword .select) "sElEcT".toList := .keyword (by decide)
  have hcomment : Separator (' ' :: ('-' :: '-' :: ['\'', ';'] ++ '\n' :: [])) :=
    .mk (by decide) (.comment (by decide) .nil)
  have htext : Spells (.literal (.text "--;")) ('"' :: "--;".toList ++ ['"']) :=
    .text (by decide) (by decide)
  have hname : Spells (.identifier "a") "a".toList :=
    @Spells.identifier "a" 'a' [] (by decide) (by simp) rfl (by decide)
  have hspace : Separator [' '] := .mk (by decide) .nil
  have hlays := Lays.empty .nil (.cons .nil (.cons hselect hcomment (.one htext))
    (.separator hspace) (.last (.space (c := ' ') (by decide) .nil) (.one hname) .nil))
  exact ⟨hlays, hlays.mapM_tokenize⟩

end EmbeddedSql.Sql
