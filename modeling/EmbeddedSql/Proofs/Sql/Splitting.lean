import EmbeddedSql.Proofs.Text.Classes
import EmbeddedSql.Sql.Script

/-!
# How a script falls into statements

A script is scanned into pieces, the pieces are cut at the stops, and the pieces
of a statement are put together with one space for its gaps. For each of these
steps there are lemmas that follow a text from its front: through words that
stand by themselves, through gaps and past stops.
-/

namespace EmbeddedSql

namespace Text

/-! ## Trimming -/

/-- Trimming the end removes the first character only if it is whitespace and nothing is left
behind it. -/
theorem trimEnd_cons (c : Char) (text : List Char) :
    trimEnd (c :: text) =
      if trimEnd text = [] ∧ isWhitespace c = true then [] else c :: trimEnd text := by
  simp only [trimEnd, List.reverse_cons, List.dropWhile_append, List.isEmpty_iff,
    List.reverse_eq_nil_iff]
  by_cases hempty : text.reverse.dropWhile isWhitespace = []
  · by_cases hc : isWhitespace c = true
    · simp [hempty, hc]
    · simp [hempty, hc]
  · simp [hempty]

/-- A text without whitespace at its end stays whole in front of any other. -/
theorem trimEnd_append {front : List Char} {last : Char} (hl : isWhitespace last = false)
    (back : List Char) : trimEnd (front ++ last :: back) = front ++ last :: trimEnd back := by
  induction front with
  | nil => simp [trimEnd_cons, hl]
  | cons c rest ih =>
    have hne : rest ++ last :: trimEnd back ≠ [] := by simp
    rw [List.cons_append, trimEnd_cons, ih, if_neg fun h => hne h.1, List.cons_append]

/-- Trimming the end puts nothing into a text. -/
theorem mem_of_mem_trimEnd {text : List Char} {c : Char} (h : c ∈ trimEnd text) : c ∈ text := by
  rw [trimEnd, List.mem_reverse] at h
  exact List.mem_reverse.mp ((List.dropWhile_sublist isWhitespace).mem h)

/-- A text without whitespace in front is not trimmed there. -/
theorem trimStart_of_not_isWhitespace {c : Char} (hc : isWhitespace c = false) (text : List Char) :
    trimStart (c :: text) = c :: text :=
  List.dropWhile_cons_of_neg (by simp [hc])

end Text

namespace Sql.Script

/-! ## Pieces -/

/-- The pieces of a text are that of its first character, if it has one, and those behind it,
scanned in the mode behind the character. -/
theorem piecesFrom_cons (mode : Mode) (c : Char) (rest : List Char) :
    piecesFrom mode (c :: rest) =
      (pieceAt mode c rest.head?).toList ++ piecesFrom (mode.after c rest.head?) rest := by
  cases mode <;> rfl

/-- The mode behind a text is the one behind its first character, followed through what is
left. -/
theorem modeAfter_cons (mode : Mode) (c : Char) (rest : List Char) :
    modeAfter mode (c :: rest) = modeAfter (mode.after c rest.head?) rest := by
  cases mode <;> rfl

/-- Only behind a dash does the next character matter. -/
theorem after_of_ne {c : Char} (h : c ≠ '-') (mode : Mode) (next next' : Option Char) :
    mode.after c next = mode.after c next' := by
  cases mode <;> simp [Mode.after, h]

/-- The pieces of a text are those of its front and those of its back, scanned
from where the front's scan ends, unless the two meet between two dashes. -/
theorem piecesFrom_append {mode : Mode} {front back : List Char}
    (h : front.getLast? ≠ some '-' ∨ back.head? ≠ some '-') :
    piecesFrom mode (front ++ back) =
      piecesFrom mode front ++ piecesFrom (modeAfter mode front) back := by
  cases back with
  | nil => simp [piecesFrom]
  | cons d back =>
    by_cases hd : d = '-'
    · have hlast : front.getLast? ≠ some '-' := h.resolve_right fun hn => hn (by rw [hd]; rfl)
      induction front generalizing mode with
      | nil => rfl
      | cons c rest ih =>
        cases rest with
        | nil =>
          have hc : c ≠ '-' := fun he => hlast (by rw [he]; rfl)
          have hm : mode.after c (some d) = mode.after c none := after_of_ne hc mode _ _
          have hp : pieceAt mode c (some d) = pieceAt mode c none := by
            cases mode <;> simp [pieceAt, hc]
          simp [piecesFrom, modeAfter, hm, hp]
        | cons e more =>
          have hmore : (e :: more).getLast? ≠ some '-' := by
            rwa [List.getLast?_cons_cons] at hlast
          have hrest := @ih (mode.after c (some e)) (.inl hmore) hmore
          rw [List.cons_append, piecesFrom_cons, piecesFrom_cons, modeAfter_cons,
            List.append_assoc]
          exact congrArg ((pieceAt mode c (some e)).toList ++ ·) hrest
    · exact piecesFrom_append_cons hd

/-- A text is scanned to its end by way of the end of its front, unless the two meet
between two dashes. -/
theorem modeAfter_append {mode : Mode} {front back : List Char}
    (h : front.getLast? ≠ some '-' ∨ back.head? ≠ some '-') :
    modeAfter mode (front ++ back) = modeAfter (modeAfter mode front) back := by
  induction front generalizing mode with
  | nil => rfl
  | cons c rest ih =>
    have hnext : mode.after c (rest ++ back).head? = mode.after c rest.head? := by
      cases rest with
      | cons d more => rfl
      | nil =>
        rcases h with hc | hd
        · exact after_of_ne (fun he => hc (congrArg some he)) mode _ _
        · have hd' : back.head? ≠ some '-' := hd
          cases mode <;> simp [Mode.after, hd']
    have hrest : rest.getLast? ≠ some '-' ∨ back.head? ≠ some '-' := by
      refine h.imp_left fun hlast hr => hlast ?_
      rw [List.getLast?_cons, hr]
      rfl
    rw [List.cons_append, modeAfter_cons, modeAfter_cons, hnext]
    exact ih hrest

/-- The rest of a comment is passed over. -/
theorem piecesFrom_comment {comment : List Char} (h : '\n' ∉ comment) (back : List Char) :
    piecesFrom .comment (comment ++ back) = piecesFrom .comment back := by
  induction comment with
  | nil => rfl
  | cons c rest ih =>
    have hc : c ≠ '\n' := fun he => h (he ▸ List.mem_cons_self)
    have hafter (next : Option Char) : Mode.comment.after c next = .comment := by
      simp only [Mode.after, if_neg hc]
    rw [List.cons_append, piecesFrom_cons, hafter, ih fun hm => h (List.mem_cons_of_mem c hm)]
    rfl

/-- What a character outside quotes and comments is: the first dash of a comment,
a semicolon, whitespace, or a part of a statement. -/
theorem plain_cases (c : Char) (next : Option Char) :
    (c = '-' ∧ next = some '-' ∧ pieceAt .plain c next = some .gap ∧
      Mode.plain.after c next = .comment) ∨
    (c = ';' ∧ pieceAt .plain c next = some .stop ∧ Mode.plain.after c next = .plain) ∨
    (Text.isWhitespace c = true ∧ pieceAt .plain c next = some .gap ∧
      Mode.plain.after c next = .plain) ∨
    (pieceAt .plain c next = some (.char c) ∧
      Mode.plain.after c next = if isQuote c then .quoted c else .plain) := by
  by_cases hdash : c = '-' ∧ next = some '-'
  · exact .inl ⟨hdash.1, hdash.2, by simp [pieceAt, hdash], by simp [Mode.after, hdash]⟩
  · have hafter : Mode.plain.after c next = if isQuote c then .quoted c else .plain := by
      simp only [Mode.after, if_neg hdash]
    by_cases hstop : c = ';'
    · subst hstop
      exact .inr (.inl ⟨rfl, rfl, rfl⟩)
    · by_cases hc : Text.isWhitespace c = true
      · have hne := Text.ne_of_isWhitespace hc
        have hquote : isQuote c = false := by simp [isQuote, hne]
        refine .inr (.inr (.inl ⟨hc, ?_, ?_⟩))
        · simp [pieceAt, hstop, hc, hne]
        · simp [hafter, hquote]
      · refine .inr (.inr (.inr ⟨?_, hafter⟩))
        simp only [pieceAt, if_neg hdash, if_neg hstop, if_neg hc]

/-- A word that stands by itself: all of it belongs to a statement, the scan is
outside quotes again behind it, and it neither begins nor ends with whitespace. -/
structure Standalone (word : List Char) : Prop where
  /-- Every character stands in a statement. -/
  pieces : piecesFrom .plain word = word.map .char
  /-- The scan ends outside quotes. -/
  mode : modeAfter .plain word = .plain
  /-- The first character. -/
  first : ∃ c rest, word = c :: rest ∧ Text.isWhitespace c = false
  /-- The last character. -/
  last : ∃ front c, word = front ++ [c] ∧ Text.isWhitespace c = false

/-- A word that stands by itself is not empty. -/
theorem Standalone.ne_nil {word : List Char} (h : Standalone word) : word ≠ [] := by
  obtain ⟨c, rest, hw, _⟩ := h.first
  rw [hw]
  exact List.cons_ne_nil c rest

/-- The pieces of a word and of what follows it. -/
theorem Standalone.piecesFrom_append {word : List Char} (h : Standalone word) {back : List Char}
    (hb : word.getLast? ≠ some '-' ∨ back.head? ≠ some '-') :
    piecesFrom .plain (word ++ back) = word.map .char ++ piecesFrom .plain back := by
  rw [Script.piecesFrom_append hb, h.pieces, h.mode]

/-- Characters outside quotes that are no quote, no dash, no semicolon and no
whitespace stand for themselves. -/
def isInert (c : Char) : Bool :=
  !isQuote c && c != '-' && c != ';' && !Text.isWhitespace c

/-- Outside quotes an inert character is a piece of a statement and leaves the scan outside
quotes. -/
theorem pieceAt_of_isInert {c : Char} (h : isInert c = true) (next : Option Char) :
    pieceAt .plain c next = some (.char c) ∧ Mode.plain.after c next = .plain := by
  simp only [isInert, Bool.and_eq_true, Bool.not_eq_true', bne_iff_ne] at h
  simp [pieceAt, Mode.after, h]

/-- Outside quotes inert characters are the pieces of a statement and leave the scan outside
quotes. -/
theorem piecesFrom_of_isInert {word : List Char} (h : ∀ c ∈ word, isInert c = true) :
    piecesFrom .plain word = word.map .char ∧ modeAfter .plain word = .plain := by
  induction word with
  | nil => exact ⟨rfl, rfl⟩
  | cons c rest ih =>
    have hc := pieceAt_of_isInert (h c List.mem_cons_self) rest.head?
    have hrest := ih fun d hd => h d (List.mem_cons_of_mem c hd)
    rw [piecesFrom_cons, modeAfter_cons, hc.1, hc.2, hrest.1, hrest.2]
    exact ⟨rfl, rfl⟩

/-- An inert character is no whitespace. -/
theorem isWhitespace_of_isInert {c : Char} (h : isInert c = true) :
    Text.isWhitespace c = false := by
  simp only [isInert, Bool.and_eq_true, Bool.not_eq_true'] at h
  exact h.2

/-- A word of such characters stands by itself. -/
theorem standalone_of_isInert {word : List Char} (h : ∀ c ∈ word, isInert c = true)
    (hne : word ≠ []) : Standalone word where
  pieces := (piecesFrom_of_isInert h).1
  mode := (piecesFrom_of_isInert h).2
  first := by
    obtain ⟨c, rest, rfl⟩ := List.exists_cons_of_ne_nil hne
    exact ⟨c, rest, rfl, isWhitespace_of_isInert (h c List.mem_cons_self)⟩
  last := by
    have hm := List.getLast_mem hne
    exact ⟨word.dropLast, word.getLast hne, (List.dropLast_concat_getLast hne).symm,
      isWhitespace_of_isInert (h _ hm)⟩

/-- Behind a quote a text is copied up to the next quote like it. -/
theorem piecesFrom_quoted {quote : Char} {content : List Char} (h : quote ∉ content) :
    piecesFrom (.quoted quote) (content ++ [quote]) = (content ++ [quote]).map .char ∧
      modeAfter (.quoted quote) (content ++ [quote]) = .plain := by
  induction content with
  | nil => simp [piecesFrom, modeAfter, pieceAt, Mode.after]
  | cons c rest ih =>
    have hc : c ≠ quote := fun he => h (he ▸ List.mem_cons_self)
    have hrest := ih fun hm => h (List.mem_cons_of_mem c hm)
    have hafter (next : Option Char) : (Mode.quoted quote).after c next = .quoted quote := by
      simp only [Mode.after, if_neg hc]
    rw [List.cons_append, piecesFrom_cons, modeAfter_cons, hafter, hrest.1, hrest.2]
    exact ⟨rfl, rfl⟩

/-- A text in quotes that it does not hold stands by itself. -/
theorem standalone_quoted {quote : Char} (hq : isQuote quote = true) {content : List Char}
    (h : quote ∉ content) : Standalone (quote :: content ++ [quote]) := by
  have hspecial : quote ≠ '-' ∧ quote ≠ ';' ∧ Text.isWhitespace quote = false := by
    simp only [isQuote, Bool.or_eq_true, beq_iff_eq] at hq
    rcases hq with rfl | rfl
    · decide
    · decide
  have hrest := piecesFrom_quoted h
  refine ⟨?_, ?_, ⟨quote, _, rfl, hspecial.2.2⟩, ⟨quote :: content, quote, rfl, hspecial.2.2⟩⟩
  · simp only [List.cons_append, piecesFrom, pieceAt, Mode.after, hspecial, hq, false_and,
      if_false, if_true, hrest.1]
    simp
  · simp only [List.cons_append, modeAfter, Mode.after, hspecial, hq, false_and, if_false, if_true,
      hrest.2]

/-! ## Cutting at the stops -/

/-- There is always a group, if an empty one. -/
theorem groups_ne_nil (pieces : List Piece) : groups pieces ≠ [] := by
  cases pieces with
  | nil => simp [groups]
  | cons piece rest =>
    cases piece with
    | stop => simp [groups]
    | gap => rw [groups.eq_def]; simp only; split <;> simp
    | char c => rw [groups.eq_def]; simp only; split <;> simp

/-- A piece that is no stop joins the first group behind it. -/
theorem groups_cons {piece : Piece} (h : piece ≠ .stop) {pieces group : List Piece}
    {others : List (List Piece)} (hg : groups pieces = group :: others) :
    groups (piece :: pieces) = (piece :: group) :: others := by
  cases piece with
  | stop => exact absurd rfl h
  | gap => simp [groups, hg]
  | char c => simp [groups, hg]

/-- Pieces without a stop join the first group behind them. -/
theorem groups_append {front : List Piece} (h : .stop ∉ front) {pieces group : List Piece}
    {others : List (List Piece)} (hg : groups pieces = group :: others) :
    groups (front ++ pieces) = (front ++ group) :: others := by
  induction front with
  | nil => exact hg
  | cons piece rest ih =>
    have hp : piece ≠ .stop := fun he => h (he ▸ List.mem_cons_self)
    exact groups_cons hp (ih fun hm => h (List.mem_cons_of_mem piece hm))

/-- Pieces without a stop are one group. -/
theorem groups_of_not_mem {pieces : List Piece} (h : .stop ∉ pieces) :
    groups pieces = [pieces] := by
  have hg : groups (pieces ++ []) = [pieces ++ []] := groups_append h rfl
  simpa using hg

/-- A stop ends the group in front of it. -/
theorem groups_stop {front : List Piece} (h : .stop ∉ front) (pieces : List Piece) :
    groups (front ++ .stop :: pieces) = front :: groups pieces := by
  have hg : groups (front ++ .stop :: pieces) = (front ++ []) :: groups pieces :=
    groups_append h rfl
  simpa using hg

/-- A group has no stop in it. -/
theorem stop_not_mem_of_mem_groups {pieces group : List Piece} (h : group ∈ groups pieces) :
    .stop ∉ group := by
  induction pieces generalizing group with
  | nil =>
    rw [List.mem_singleton.mp h]
    exact List.not_mem_nil
  | cons piece rest ih =>
    by_cases hp : piece = .stop
    · subst hp
      rcases List.mem_cons.mp h with rfl | h
      · exact List.not_mem_nil
      · exact ih h
    · obtain ⟨first, others, hg⟩ := List.exists_cons_of_ne_nil (groups_ne_nil rest)
      rw [groups_cons hp hg] at h
      rw [hg] at ih
      rcases List.mem_cons.mp h with rfl | h
      · simpa [Ne.symm hp] using ih List.mem_cons_self
      · exact ih (List.mem_cons_of_mem first h)

/-! ## Putting a statement together -/

/-- The text of pieces behind a character: a gap at their front becomes a space
if more text follows. -/
def spaced : List Piece → List Char
  | .gap :: rest => if join rest = [] then [] else ' ' :: join rest
  | pieces => join pieces

/-- A gap at the front of a text is left out. -/
theorem join_gap (pieces : List Piece) : join (.gap :: pieces) = join pieces := by
  simp [join]

/-- Behind its first character the text of pieces has a space for each gap. -/
theorem join_char (c : Char) (pieces : List Piece) :
    join (.char c :: pieces) = c :: spaced pieces := by
  cases pieces with
  | nil => rfl
  | cons piece rest =>
    cases piece with
    | gap =>
      rw [join, spaced]
      split
      next he => rw [if_pos he]
      next hne => rw [if_neg hne]
    | char d => simp [join, spaced]
    | stop => simp [join, spaced]

/-- A character in the middle of a text is followed by what is behind it. -/
theorem spaced_char (c : Char) (pieces : List Piece) :
    spaced (.char c :: pieces) = c :: spaced pieces := by
  rw [← join_char]
  rfl

/-- A word in the middle of a text is followed by what is behind it. -/
theorem spaced_word {word : List Char} (h : word ≠ []) (pieces : List Piece) :
    spaced (word.map .char ++ pieces) = word ++ spaced pieces := by
  induction word with
  | nil => exact absurd rfl h
  | cons c rest ih =>
    rw [List.map_cons, List.cons_append, spaced_char]
    cases rest with
    | nil => rfl
    | cons d more =>
      rw [ih (List.cons_ne_nil d more)]
      rfl

/-- A word at the front of a text is followed by what is behind it. -/
theorem join_word {word : List Char} (h : word ≠ []) (pieces : List Piece) :
    join (word.map .char ++ pieces) = word ++ spaced pieces := by
  obtain ⟨c, rest, rfl⟩ := List.exists_cons_of_ne_nil h
  exact spaced_word h pieces

end Sql.Script

end EmbeddedSql
