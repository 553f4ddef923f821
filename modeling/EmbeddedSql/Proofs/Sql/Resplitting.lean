import EmbeddedSql.Proofs.Sql.Layout
import EmbeddedSql.Proofs.Sql.Substitution

/-!
# Splitting again

A statement that the splitter has found is in a settled form: no semicolon, no
comment and no more whitespace outside quotes than single spaces between other
characters. The splitter finds nothing but itself in a text of that form. Scripts
are followed one semicolon at a time, and what stands on either side of a semicolon
outside quotes is split by itself.
-/

namespace EmbeddedSql.Sql.Script

/-! ## Cutting at a semicolon -/

/-- The groups on either side of a stop. -/
theorem groups_append_stop (front back : List Piece) :
    groups (front ++ .stop :: back) = groups front ++ groups back := by
  induction front with
  | nil => rfl
  | cons piece rest ih =>
    by_cases hp : piece = .stop
    · subst hp
      exact congrArg ([] :: ·) ih
    · obtain ⟨group, others, hg⟩ := List.exists_cons_of_ne_nil (groups_ne_nil rest)
      rw [hg, List.cons_append] at ih
      rw [List.cons_append, groups_cons hp ih, groups_cons hp hg]
      rfl

/-- The texts on either side of a stop. -/
theorem texts_append_stop (front back : List Piece) :
    texts (front ++ .stop :: back) = texts front ++ texts back := by
  rw [texts, groups_append_stop, List.map_append, List.filter_append]
  rfl

/-- A gap at the end leaves nothing behind. -/
theorem spaced_concat_gap (pieces : List Piece) :
    spaced (pieces ++ [.gap]) = spaced pieces ∧ join (pieces ++ [.gap]) = join pieces := by
  induction pieces with
  | nil => exact ⟨rfl, rfl⟩
  | cons piece rest ih =>
    cases piece with
    | stop => simp only [List.cons_append, spaced, join, ih, and_self]
    | gap => simp only [List.cons_append, spaced, join_gap, ih, and_self]
    | char c => simp only [List.cons_append, spaced_char, join_char, ih, and_self]

/-- A gap at the end belongs to the last group. -/
theorem groups_concat_gap (pieces : List Piece) :
    ∃ others last, groups pieces = others ++ [last] ∧
      groups (pieces ++ [.gap]) = others ++ [last ++ [.gap]] := by
  induction pieces with
  | nil => exact ⟨[], [], rfl, rfl⟩
  | cons piece rest ih =>
    obtain ⟨others, last, hrest, hgap⟩ := ih
    by_cases hp : piece = .stop
    · subst hp
      exact ⟨[] :: others, last, congrArg ([] :: ·) hrest, congrArg ([] :: ·) hgap⟩
    · cases others with
      | nil =>
        exact ⟨[], piece :: last, groups_cons hp hrest, groups_cons hp hgap⟩
      | cons first others =>
        exact ⟨(piece :: first) :: others, last, groups_cons hp hrest, groups_cons hp hgap⟩

/-- A gap at the end changes no statement. -/
theorem texts_concat_gap (pieces : List Piece) : texts (pieces ++ [.gap]) = texts pieces := by
  obtain ⟨others, last, hpieces, hgap⟩ := groups_concat_gap pieces
  simp only [texts, hpieces, hgap, List.map_append, List.map_cons, List.map_nil,
    (spaced_concat_gap last).2]

/-- The statements of a script are the texts of its pieces. -/
theorem statements_eq_texts (script : List Char) :
    statements script = texts (piecesFrom .plain script) := rfl

/-- A semicolon outside quotes and comments stands between the statements in front of
it and those behind it. -/
theorem statements_append_semicolon {front : List Char} (h : modeAfter .plain front = .plain)
    (back : List Char) :
    statements (front ++ ';' :: back) = statements front ++ statements back := by
  have hpieces : piecesFrom .plain (front ++ ';' :: back) =
      piecesFrom .plain front ++ .stop :: piecesFrom .plain back := by
    rw [piecesFrom_append_cons (by decide), h, piecesFrom_semicolon]
  rw [statements_eq_texts, hpieces, texts_append_stop]
  rfl

/-- So does a semicolon on the next line, if a comment is left open. -/
theorem statements_append_newline {front : List Char}
    (h : ∀ quote, modeAfter .plain front ≠ .quoted quote) (back : List Char) :
    statements (front ++ '\n' :: ';' :: back) = statements front ++ statements back := by
  have hpieces := @piecesFrom_append_cons .plain front (';' :: back) '\n' (by decide)
  cases hm : modeAfter .plain front with
  | quoted quote => exact absurd hm (h quote)
  | plain =>
    have hline : piecesFrom .plain ('\n' :: ';' :: back) =
        [.gap] ++ .stop :: piecesFrom .plain back := rfl
    rw [hm, hline, ← List.append_assoc] at hpieces
    rw [statements_eq_texts, hpieces, texts_append_stop, texts_concat_gap]
    rfl
  | comment =>
    have hline : piecesFrom .comment ('\n' :: ';' :: back) =
        .stop :: piecesFrom .plain back := rfl
    rw [hm, hline] at hpieces
    rw [statements_eq_texts, hpieces, texts_append_stop]
    rfl

/-- Where a scan meets a stop there is a semicolon outside quotes and comments. -/
theorem exists_semicolon {mode : Mode} {script : List Char} (h : .stop ∈ piecesFrom mode script) :
    ∃ front back, script = front ++ ';' :: back ∧ .stop ∉ piecesFrom mode front ∧
      modeAfter mode front = .plain := by
  induction script generalizing mode with
  | nil => cases h
  | cons c rest ih =>
    by_cases hfirst : pieceAt mode c rest.head? = some .stop
    · have hc : mode = .plain ∧ c = ';' := by
        cases mode with
        | quoted quote => cases hfirst
        | comment => cases hfirst
        | plain =>
          obtain ⟨_, _, hp, _⟩ | ⟨hc, _⟩ | ⟨_, hp, _⟩ | ⟨hp, _⟩ := plain_cases c rest.head?
          · rw [hp] at hfirst
            cases hfirst
          · exact ⟨rfl, hc⟩
          · rw [hp] at hfirst
            cases hfirst
          · rw [hp] at hfirst
            cases hfirst
      obtain ⟨rfl, rfl⟩ := hc
      exact ⟨[], rest, rfl, List.not_mem_nil, rfl⟩
    · rw [piecesFrom_cons, List.mem_append] at h
      have hrest := h.resolve_left fun hm => hfirst (Option.mem_toList.mp hm)
      obtain ⟨front, back, rfl, hstop, hmode⟩ := ih hrest
      -- Only what the next character is matters for the step, and the semicolon is no dash.
      have hsame : mode.after c front.head? = mode.after c (front ++ ';' :: back).head? ∧
          pieceAt mode c front.head? = pieceAt mode c (front ++ ';' :: back).head? := by
        cases front with
        | nil => cases mode <;> simp [Mode.after, pieceAt]
        | cons d front => exact ⟨rfl, rfl⟩
      refine ⟨c :: front, back, rfl, ?_, ?_⟩
      · rw [piecesFrom_cons, hsame.1, hsame.2, List.mem_append, not_or]
        exact ⟨fun hm => hfirst (Option.mem_toList.mp hm), hstop⟩
      · rw [modeAfter_cons, hsame.1, hmode]

/-- A property of scripts holds if it holds of those without a stop, and holds of a
script whose first statement is one and whose others have it. -/
theorem following {motive : List Char → Prop}
    (last : ∀ script, .stop ∉ piecesFrom .plain script → motive script)
    (cons : ∀ front back, .stop ∉ piecesFrom .plain front → modeAfter .plain front = .plain →
      motive back → motive (front ++ ';' :: back))
    (script : List Char) : motive script := by
  induction hn : script.length using Nat.strong_induction_on generalizing script with
  | _ n ih =>
    by_cases hstop : .stop ∈ piecesFrom .plain script
    · obtain ⟨front, back, rfl, hfront, hmode⟩ := exists_semicolon hstop
      have hlength : back.length < n := by
        rw [← hn, List.length_append, List.length_cons]
        omega
      exact cons front back hfront hmode (ih _ hlength back rfl)
    · exact last script hstop

/-! ## Texts in the form of statements -/

/-- A text, scanned from a mode on, is in the form that statements have: outside
quotes there is no semicolon, no comment and no whitespace but a single space in
front of another character. -/
inductive Inline : Mode → List Char → Prop where
  /-- Nothing. -/
  | nil {mode : Mode} : Inline mode []
  /-- Any character behind a quote. -/
  | quoted {quote c : Char} {rest : List Char} (isQuote : isQuote quote = true)
    (more : Inline ((Mode.quoted quote).after c rest.head?) rest) :
    Inline (.quoted quote) (c :: rest)
  /-- A character that stands in a statement. -/
  | char {c : Char} {rest : List Char} (piece : pieceAt .plain c rest.head? = some (.char c))
    (more : Inline (Mode.plain.after c rest.head?) rest) : Inline .plain (c :: rest)
  /-- A space in front of a character. -/
  | space {c : Char} {rest : List Char} (solid : Text.isWhitespace c = false)
    (more : Inline .plain (c :: rest)) : Inline .plain (' ' :: c :: rest)

/-- A character that stands in a statement is no whitespace. -/
theorem isWhitespace_of_pieceAt {c : Char} {next : Option Char}
    (h : pieceAt .plain c next = some (.char c)) : Text.isWhitespace c = false := by
  refine Bool.eq_false_iff.mpr fun hc => ?_
  obtain ⟨_, _, hp, _⟩ | ⟨_, hp, _⟩ | ⟨_, hp, _⟩ | ⟨hp, _⟩ := plain_cases c next
  · rw [hp] at h
    cases h
  · rw [hp] at h
    cases h
  · rw [hp] at h
    cases h
  · simp [pieceAt, hc, Text.ne_of_isWhitespace hc] at h

/-- It does so in front of another character too, if that adds no second dash. -/
theorem pieceAt_congr {c : Char} {next other : Option Char}
    (h : pieceAt .plain c next = some (.char c))
    (hdash : c = '-' → next ≠ some '-' → other ≠ some '-') :
    pieceAt .plain c other = some (.char c) ∧
      Mode.plain.after c other = Mode.plain.after c next := by
  by_cases hc : c = '-'
  · subst hc
    have hnext : next ≠ some '-' := fun hn => by simp [pieceAt, hn] at h
    have hsolid : Text.isWhitespace '-' = false := by decide
    simp [pieceAt, Mode.after, hdash rfl hnext, hnext, hsolid]
  · obtain ⟨hafter, hpiece⟩ := ScriptSwap.after_congr hc .plain next other
    exact ⟨hpiece ▸ h, hafter.symm⟩

namespace Inline

variable {mode : Mode} {text : List Char}

/-- Behind a single space a text keeps the form of a statement. -/
theorem of_space (h : Inline .plain (' ' :: text)) : Inline .plain text := by
  cases h with
  | char piece more =>
    have hsolid := isWhitespace_of_pieceAt piece
    exact absurd hsolid (by decide)
  | space solid more => exact more

/-- Pieces whose text begins with something else than whitespace begin with no gap. -/
theorem join_eq_spaced {pieces : List Piece} {c : Char} {rest : List Char}
    (h : spaced pieces = c :: rest) (hc : Text.isWhitespace c = false) :
    join pieces = spaced pieces := by
  cases pieces with
  | nil => rfl
  | cons piece more =>
    cases piece with
    | stop => rfl
    | char d => rfl
    | gap =>
      rw [spaced] at h
      split at h
      · cases h
      · obtain ⟨rfl, -⟩ := List.cons.inj h
        exact absurd hc (by decide)

/-- A text in the form of a statement is put together again from its pieces. -/
theorem spaced_piecesFrom (h : Inline mode text) :
    .stop ∉ piecesFrom mode text ∧ spaced (piecesFrom mode text) = text := by
  induction h with
  | nil => exact ⟨List.not_mem_nil, rfl⟩
  | @quoted quote c rest _ more ih =>
    have hpieces : piecesFrom (.quoted quote) (c :: rest) =
        .char c :: piecesFrom ((Mode.quoted quote).after c rest.head?) rest := rfl
    rw [hpieces, spaced_char, ih.2]
    exact ⟨by simp [ih.1], rfl⟩
  | @char c rest piece more ih =>
    have hpieces : piecesFrom .plain (c :: rest) =
        .char c :: piecesFrom (Mode.plain.after c rest.head?) rest := by
      rw [piecesFrom_cons, piece]
      rfl
    rw [hpieces, spaced_char, ih.2]
    exact ⟨by simp [ih.1], rfl⟩
  | @space c rest solid more ih =>
    rw [piecesFrom_of_isWhitespace (by decide)]
    have hjoin := join_eq_spaced ih.2 solid
    rw [ih.2] at hjoin
    simp only [spaced, hjoin]
    exact ⟨by simp [ih.1], if_neg (List.cons_ne_nil c rest)⟩

/-- Cutting the whitespace off the end keeps the form. -/
theorem trimEnd (h : Inline mode text) : Inline mode (Text.trimEnd text) := by
  induction h with
  | nil => exact .nil
  | @quoted quote c rest isQuote more ih =>
    rw [Text.trimEnd_cons]
    split
    next => exact .nil
    next => exact .quoted isQuote ih
  | @char c rest piece more ih =>
    have hsame := pieceAt_congr piece fun _ hne hd => hne (TextSwap.head?_trimEnd hd)
    have hsolid := isWhitespace_of_pieceAt piece
    rw [Text.trimEnd_cons, if_neg (by simp [hsolid])]
    exact .char hsame.1 (hsame.2 ▸ ih)
  | @space c rest solid more ih =>
    have hrest : Text.trimEnd (c :: rest) = c :: Text.trimEnd rest := by
      rw [Text.trimEnd_cons, if_neg (by simp [solid])]
    rw [Text.trimEnd_cons, hrest, if_neg (by simp)]
    exact .space solid (hrest ▸ ih)

/-- A text that ends outside quotes does not end with whitespace. -/
theorem trimEnd_eq (h : Inline mode text) (hm : modeAfter mode text = .plain) :
    Text.trimEnd text = text := by
  induction h with
  | nil => rfl
  | @quoted quote c rest isQuote more ih =>
    rw [modeAfter_cons] at hm
    rw [Text.trimEnd_cons, ih hm]
    refine if_neg fun hend => ?_
    rw [hend.1] at hm
    have hc : c = quote := by
      by_contra hne
      simp [modeAfter, Mode.after, hne] at hm
    rw [hc] at hend
    rw [isQuote_of_isWhitespace hend.2] at isQuote
    cases isQuote
  | @char c rest piece more ih =>
    rw [modeAfter_cons] at hm
    rw [Text.trimEnd_cons, ih hm, if_neg (by simp [isWhitespace_of_pieceAt piece])]
  | @space c rest solid more ih =>
    rw [modeAfter_cons] at hm
    rw [Text.trimEnd_cons, ih hm, if_neg (by simp)]

end Inline

/-! ## Scanning gives texts in that form -/

/-- The mode in which the text of a statement goes on: behind a comment it is outside
quotes. -/
def Mode.inStatement : Mode → Mode
  | .quoted quote => .quoted quote
  | .plain | .comment => .plain

/-- Outside quotes the text of the pieces begins with no whitespace. -/
theorem isWhitespace_of_head?_join {mode : Mode} {script : List Char}
    (hm : mode.inStatement = .plain) {c : Char}
    (h : (join (piecesFrom mode script)).head? = some c) : Text.isWhitespace c = false := by
  induction script generalizing mode with
  | nil => cases h
  | cons d rest ih =>
    rw [piecesFrom_cons] at h
    cases mode with
    | quoted quote => cases hm
    | comment =>
      have hrest : (Mode.comment.after d rest.head?).inStatement = .plain := by
        by_cases hd : d = '\n'
        · simp [Mode.after, hd, Mode.inStatement]
        · simp [Mode.after, hd, Mode.inStatement]
      exact ih hrest h
    | plain =>
      obtain ⟨_, _, hp, ha⟩ | ⟨_, hp, ha⟩ | ⟨_, hp, ha⟩ | ⟨hp, _⟩ := plain_cases d rest.head?
      · rw [hp, ha] at h
        exact ih rfl (join_gap _ ▸ h)
      · rw [hp, ha] at h
        exact ih rfl h
      · rw [hp, ha] at h
        exact ih rfl (join_gap _ ▸ h)
      · rw [hp, Option.toList_some, List.singleton_append, join_char, List.head?_cons,
          Option.some.injEq] at h
        exact h ▸ isWhitespace_of_pieceAt hp

/-- Behind a character the text of pieces is their text, or that behind a space. -/
theorem spaced_cases (pieces : List Piece) :
    spaced pieces = join pieces ∨ join pieces ≠ [] ∧ spaced pieces = ' ' :: join pieces := by
  cases pieces with
  | nil => exact .inl rfl
  | cons piece rest =>
    cases piece with
    | stop => exact .inl rfl
    | char c => exact .inl rfl
    | gap =>
      rw [join_gap, spaced]
      by_cases hrest : join rest = []
      · exact .inl (by rw [if_pos hrest, hrest])
      · exact .inr ⟨hrest, if_neg hrest⟩

/-- One more gap in front changes nothing about the form, and nothing about where the
scan ends. -/
theorem inline_gap {pieces : List Piece} (h : Inline .plain (spaced pieces))
    (hsolid : ∀ c, (join pieces).head? = some c → Text.isWhitespace c = false) :
    Inline .plain (spaced (.gap :: pieces)) ∧
      modeAfter .plain (spaced (.gap :: pieces)) = modeAfter .plain (spaced pieces) := by
  rw [spaced]
  obtain hsame | ⟨hne, hspace⟩ := spaced_cases pieces
  · cases hjoin : join pieces with
    | nil => rw [if_pos rfl, hsame, hjoin]; exact ⟨.nil, rfl⟩
    | cons c rest =>
      rw [hsame, hjoin] at h ⊢
      rw [if_neg (List.cons_ne_nil c rest)]
      exact ⟨.space (hsolid c (by rw [hjoin]; rfl)) h, rfl⟩
  · rw [if_neg hne, ← hspace]
    exact ⟨h, rfl⟩

/-- If text is quoted, a quote has opened it. -/
def Mode.Opened (mode : Mode) : Prop :=
  ∀ quote, mode = .quoted quote → isQuote quote = true

/-- Outside quotes no quote needs to be opened. -/
theorem opened_plain : Mode.plain.Opened := by
  intro quote he
  cases he

/-- Only a quote leads into a quoted text. -/
theorem Mode.Opened.after {mode : Mode} (h : mode.Opened) (c : Char) (next : Option Char) :
    (mode.after c next).Opened := by
  intro quote he
  cases mode with
  | comment =>
    simp only [Mode.after] at he
    split at he
    · cases he
    · cases he
  | quoted opened =>
    simp only [Mode.after] at he
    split at he
    · cases he
    · exact h quote he
  | plain =>
    simp only [Mode.after] at he
    split at he
    · cases he
    · split at he
      next hq =>
        cases he
        exact hq
      next => cases he

/-- Behind or inside a comment the text of a statement goes on outside quotes. -/
theorem inStatement_after_comment (c : Char) (next : Option Char) :
    (Mode.comment.after c next).inStatement = .plain := by
  by_cases hc : c = '\n'
  · simp [Mode.after, hc, Mode.inStatement]
  · simp [Mode.after, hc, Mode.inStatement]

/-- Inside quotes the text of a statement goes on like the script. -/
theorem inStatement_after_quoted (quote c : Char) (next : Option Char) :
    ((Mode.quoted quote).after c next).inStatement = (Mode.quoted quote).after c next := by
  by_cases hc : c = quote
  · simp [Mode.after, hc, Mode.inStatement]
  · simp [Mode.after, hc, Mode.inStatement]

/-- The text of pieces without a stop is in the form of a statement, and its scan ends
where the scan has ended. -/
theorem inline_spaced {mode : Mode} {script : List Char} (hstop : .stop ∉ piecesFrom mode script)
    (hm : mode.Opened) :
    Inline mode.inStatement (spaced (piecesFrom mode script)) ∧
      modeAfter mode.inStatement (spaced (piecesFrom mode script)) =
        (modeAfter mode script).inStatement := by
  induction script generalizing mode with
  | nil => exact ⟨.nil, rfl⟩
  | cons c rest ih =>
    rw [modeAfter_cons]
    rw [piecesFrom_cons] at hstop ⊢
    have hrest : .stop ∉ piecesFrom (mode.after c rest.head?) rest :=
      fun h => hstop (List.mem_append_right _ h)
    have hi := ih hrest (hm.after c rest.head?)
    cases mode with
    | comment =>
      rw [inStatement_after_comment] at hi
      exact hi
    | quoted quote =>
      rw [inStatement_after_quoted] at hi
      rw [pieceAt, Option.toList_some, List.singleton_append, spaced_char]
      exact ⟨.quoted (hm quote rfl) hi.1, hi.2⟩
    | plain =>
      have hgap (hafter : (Mode.plain.after c rest.head?).inStatement = .plain)
          (hp : pieceAt .plain c rest.head? = some .gap) :
          Inline .plain (spaced ((pieceAt .plain c rest.head?).toList ++
              piecesFrom (Mode.plain.after c rest.head?) rest)) ∧
            modeAfter .plain (spaced ((pieceAt .plain c rest.head?).toList ++
              piecesFrom (Mode.plain.after c rest.head?) rest)) =
              (modeAfter (Mode.plain.after c rest.head?) rest).inStatement := by
        rw [hafter] at hi
        have hgap := inline_gap hi.1 fun d hd => isWhitespace_of_head?_join hafter hd
        rw [hp]
        exact ⟨hgap.1, hgap.2.trans hi.2⟩
      obtain ⟨_, _, hp, ha⟩ | ⟨_, hp, ha⟩ | ⟨_, hp, ha⟩ | ⟨hp, ha⟩ := plain_cases c rest.head?
      · exact hgap (by rw [ha]; rfl) hp
      · rw [hp] at hstop
        exact absurd List.mem_cons_self hstop
      · exact hgap (by rw [ha]; rfl) hp
      · have hafter : (Mode.plain.after c rest.head?).inStatement =
            Mode.plain.after c rest.head? ∧ Mode.plain.after c rest.head? ≠ .comment := by
          rw [ha]
          by_cases hc : isQuote c = true
          · simp [hc, Mode.inStatement]
          · simp [hc, Mode.inStatement]
        rw [hafter.1] at hi
        -- The next character may be another, but it is a dash only where one was before.
        have hnext := pieceAt_congr hp fun _ hne hd => by
          rcases PieceSwap.head?_spaced hrest hd with hd | hd
          · exact hne (ScriptSwap.head?_piecesFrom hafter.2 hd)
          · exact absurd hd (by decide)
        rw [hp, Option.toList_some, List.singleton_append, spaced_char]
        refine ⟨.char hnext.1 (hnext.2.symm ▸ hi.1), ?_⟩
        rw [Mode.inStatement, modeAfter_cons, hnext.2]
        exact hi.2

/-! ## Statements are settled -/

/-- A text in the form that statements have: neither at its ends nor elsewhere is there
anything that the splitter would change. -/
structure Settled (text : List Char) : Prop where
  /-- It is in the form of a statement. -/
  inline : Inline .plain text
  /-- There is no whitespace at its ends. -/
  trimmed : Trimmed text

/-- The splitter finds nothing but itself in a settled text. -/
theorem Settled.statements_eq {text : List Char} (h : Settled text) : statements text = [text] := by
  obtain ⟨hstop, hspaced⟩ := h.inline.spaced_piecesFrom
  obtain ⟨c, rest, htext, hc⟩ := h.trimmed.first
  have hjoin : join (piecesFrom .plain text) = text := by
    rw [Inline.join_eq_spaced (hspaced.trans htext) hc, hspaced]
  rw [statements_eq_texts, texts_last hstop (hjoin.symm ▸ h.trimmed), hjoin]

/-- A text that is trimmed at its end, and not empty, ends with a character that is no
whitespace. -/
theorem last_trimEnd {text : List Char} (h : Text.trimEnd text ≠ []) :
    ∃ front c, Text.trimEnd text = front ++ [c] ∧ Text.isWhitespace c = false := by
  obtain ⟨c, rest, hrest⟩ := List.exists_cons_of_ne_nil
    (fun hnil => h (congrArg List.reverse hnil) : text.reverse.dropWhile Text.isWhitespace ≠ [])
  refine ⟨rest.reverse, c, ?_, ?_⟩
  · rw [Text.trimEnd, hrest, List.reverse_cons]
  · have hhead := List.head?_dropWhile_not Text.isWhitespace text.reverse
    rw [hrest] at hhead
    simpa using hhead

/-- The only statement of a script without a stop is the text of its pieces, if there is
more than whitespace to it. -/
theorem statements_eq_of_no_stop {script : List Char} (h : .stop ∉ piecesFrom .plain script) :
    statements script = if Text.trimEnd (join (piecesFrom .plain script)) = [] then []
      else [Text.trimEnd (join (piecesFrom .plain script))] := by
  have htrim : Text.trim (join (piecesFrom .plain script)) =
      Text.trimEnd (join (piecesFrom .plain script)) := by
    cases hjoin : join (piecesFrom .plain script) with
    | nil => rfl
    | cons c rest =>
      have hsolid : Text.isWhitespace c = false :=
        isWhitespace_of_head?_join rfl (by rw [hjoin]; rfl)
      rw [Text.trim, Text.trimStart_of_not_isWhitespace hsolid]
  rw [statements_eq_texts, texts, groups_of_not_mem h]
  by_cases hempty : Text.trimEnd (join (piecesFrom .plain script)) = []
  · simp [htrim, hempty]
  · simp [htrim, hempty]

/-- A script without a stop outside quotes is at most one statement, which is settled
and ends inside quotes only if the script does. -/
theorem statements_of_no_stop {script : List Char} (h : .stop ∉ piecesFrom .plain script) :
    statements script = [] ∨ ∃ text, statements script = [text] ∧ Settled text ∧
      (modeAfter .plain script = .plain → modeAfter .plain text = .plain) := by
  obtain ⟨hspaced, hmode⟩ := inline_spaced h opened_plain
  obtain ⟨hinline, hends⟩ : Inline .plain (join (piecesFrom .plain script)) ∧
      modeAfter .plain (join (piecesFrom .plain script)) =
        (modeAfter .plain script).inStatement := by
    rw [Mode.inStatement] at hspaced hmode
    obtain hsame | ⟨_, hspace⟩ := spaced_cases (piecesFrom .plain script)
    · rw [← hsame]
      exact ⟨hspaced, hmode⟩
    · rw [hspace] at hspaced hmode
      exact ⟨hspaced.of_space, hmode⟩
  rw [statements_eq_of_no_stop h]
  by_cases hempty : Text.trimEnd (join (piecesFrom .plain script)) = []
  · exact .inl (if_pos hempty)
  · refine .inr ⟨_, if_neg hempty, ⟨hinline.trimEnd, ?_, last_trimEnd hempty⟩, fun hplain => ?_⟩
    · obtain ⟨c, rest, hrest⟩ := List.exists_cons_of_ne_nil hempty
      have hhead : (Text.trimEnd (join (piecesFrom .plain script))).head? = some c := by
        rw [hrest]
        rfl
      exact ⟨c, rest, hrest, isWhitespace_of_head?_join rfl (TextSwap.head?_trimEnd hhead)⟩
    · rw [hplain] at hends
      rw [hinline.trimEnd_eq hends, hends]
      rfl

/-- Every statement of a script is settled. -/
theorem settled_of_mem_statements {script text : List Char} (h : text ∈ statements script) :
    Settled text := by
  induction script using following with
  | last script hstop =>
    obtain hnone | ⟨other, hone, hsettled, _⟩ := statements_of_no_stop hstop
    · rw [hnone] at h
      cases h
    · rw [hone] at h
      exact List.mem_singleton.mp h ▸ hsettled
  | cons front back hstop hmode ih =>
    rw [statements_append_semicolon hmode] at h
    rcases List.mem_append.mp h with h | h
    · obtain hnone | ⟨other, hone, hsettled, _⟩ := statements_of_no_stop hstop
      · rw [hnone] at h
        cases h
      · rw [hone] at h
        exact List.mem_singleton.mp h ▸ hsettled
    · exact ih h

/-- The statements of a script with semicolons between them are split into the same
statements. -/
theorem statements_intercalate (script : List Char) :
    statements ([';'].intercalate (statements script)) = statements script := by
  induction script using following with
  | last script hstop =>
    obtain hnone | ⟨text, hone, hsettled, _⟩ := statements_of_no_stop hstop
    · rw [hnone]
      rfl
    · rw [hone, List.intercalate_singleton]
      exact hsettled.statements_eq
  | cons front back hstop hmode ih =>
    rw [statements_append_semicolon hmode]
    obtain hnone | ⟨text, hone, hsettled, hends⟩ := statements_of_no_stop hstop
    · rw [hnone]
      exact ih
    · rw [hone, List.singleton_append]
      cases hback : statements back with
      | nil =>
        rw [List.intercalate_singleton]
        exact hsettled.statements_eq
      | cons next others =>
        have hjoin : [';'].intercalate (text :: next :: others) =
            text ++ ';' :: [';'].intercalate (next :: others) := by
          simp [List.intercalate_cons_cons]
        rw [hback] at ih
        rw [hjoin, statements_append_semicolon (hends hmode), hsettled.statements_eq, ih]
        rfl

end EmbeddedSql.Sql.Script
