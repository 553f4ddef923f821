import EmbeddedSql.Proofs.Sql.Spelling
import Mathlib.Data.List.Forall2

/-!
# Texts that differ in words

A text with some of its words exchanged for others, where every such word stands
outside quotes and comments and apart from its neighbours, falls into the same
statements as before, and each of them is the old one with its words exchanged.
The relation between the two texts is followed through the steps of the
splitter: from the script to its pieces, from the pieces to the groups between
the stops, and from a group to the text of a statement.
-/

namespace EmbeddedSql.Sql

/-- The quote that is open behind a character. -/
def quoteAfter (quote : Option Char) (c : Char) : Option Char :=
  match quote with
  | none => if Script.isQuote c then some c else none
  | some opened => if c = opened then none else some opened

/-- Whether a placeholder begins: a dollar sign in front of a digit. -/
def isMark (c : Char) (next : Option Char) : Bool :=
  c == '$' && next.any Char.isDigit

/-- A word that can take the place of another: it stands by itself and does not
complete what stands in front of it or behind it. -/
structure Swappable (word : List Char) : Prop extends Script.Standalone word where
  /-- It begins with no equals sign. -/
  head_ne : word.head? ≠ some '='
  /-- It ends with no dash. -/
  getLast_ne : word.getLast? ≠ some '-'

/-- A relation between words that can take each other's place. -/
structure Exchange where
  /-- The words on either side. -/
  words : List Char → List Char → Prop
  /-- Those on the left are fit for it. -/
  left : ∀ {old new : List Char}, words old new → Swappable old
  /-- Those on the right are fit for it. -/
  right : ∀ {old new : List Char}, words old new → Swappable new

/-- Statement texts that differ in exchanged words, read on with a quote open or
not, and behind a character that joins or not. No placeholder begins among what
stands as it is. -/
inductive TextSwap (exchange : Exchange) :
    Option Char → Bool → List Char → List Char → Prop
  | nil {quote : Option Char} {glued : Bool} : TextSwap exchange quote glued [] []
  | char {quote : Option Char} {glued : Bool} {c : Char} {left right : List Char}
      (mark : quote = none → isMark c left.head? = false)
      (rest : TextSwap exchange (quoteAfter quote c) (joins c) left right) :
      TextSwap exchange quote glued (c :: left) (c :: right)
  | word {old new left right : List Char} (words : exchange.words old new)
      (next : ∀ c ∈ left.head?, goesOn c = false)
      (rest : TextSwap exchange none true left right) :
      TextSwap exchange none false (old ++ left) (new ++ right)

variable {exchange : Exchange} {quote : Option Char} {glued : Bool}

/-- No placeholder begins in front of a space. -/
theorem isMark_space (c : Char) : isMark c (some ' ') = false := by
  simp [isMark, Option.any, Char.isDigit]

/-- No placeholder begins at the end of a text. -/
theorem isMark_none (c : Char) : isMark c none = false := by
  simp [isMark]

namespace TextSwap

/-- Both texts are at their end together. -/
theorem eq_nil_iff {left right : List Char} (h : TextSwap exchange quote glued left right) :
    left = [] ↔ right = [] := by
  cases h with
  | nil => simp
  | char mark rest => simp
  | word words next rest =>
    have hold := (exchange.left words).ne_nil
    have hnew := (exchange.right words).ne_nil
    simp [hold, hnew]

/-- Behind a character that joins, both texts go on with the same character. -/
theorem head?_eq {left right : List Char} (h : TextSwap exchange quote true left right) :
    left.head? = right.head? := by
  cases h with
  | nil => rfl
  | char mark rest => rfl

/-- Texts that differ in exchanged words do so when they are trimmed at the front, where then
nothing joins. -/
theorem trimStart {left right : List Char} (h : TextSwap exchange none glued left right) :
    TextSwap exchange none false (Text.trimStart left) (Text.trimStart right) := by
  generalize hq : (none : Option Char) = quote at h
  induction h with
  | nil => exact .nil
  | @char quote glued c left right mark rest ih =>
    subst hq
    by_cases hc : Text.isWhitespace c = true
    · have hnone : quoteAfter none c = none := by
        simp [quoteAfter, isQuote_of_isWhitespace hc]
      have hdrop (text : List Char) : Text.trimStart (c :: text) = Text.trimStart text :=
        List.dropWhile_cons_of_pos hc
      rw [hdrop, hdrop]
      have hrest := ih hnone.symm
      rwa [hnone] at hrest
    · have hc' : Text.isWhitespace c = false := Bool.eq_false_iff.mpr hc
      rw [Text.trimStart_of_not_isWhitespace hc', Text.trimStart_of_not_isWhitespace hc']
      exact .char mark rest
  | @word old new left right words next rest ih =>
    obtain ⟨c, cs, hold, hc⟩ := (exchange.left words).first
    obtain ⟨d, ds, hnew, hd⟩ := (exchange.right words).first
    have hswap : TextSwap exchange none false (old ++ left) (new ++ right) := .word words next rest
    rw [hold, hnew, List.cons_append, List.cons_append] at hswap ⊢
    rw [Text.trimStart_of_not_isWhitespace hc, Text.trimStart_of_not_isWhitespace hd]
    exact hswap

/-- Trimming the end of a text that does not vanish leaves its first character. -/
theorem head?_trimEnd {text : List Char} {c : Char} (h : (Text.trimEnd text).head? = some c) :
    text.head? = some c := by
  cases text with
  | nil => exact h
  | cons d rest =>
    rw [Text.trimEnd_cons] at h
    split at h
    · cases h
    · exact h

/-- Texts that differ in exchanged words do so when they are trimmed at the end. -/
theorem trimEnd {left right : List Char} (h : TextSwap exchange quote glued left right) :
    TextSwap exchange quote glued (Text.trimEnd left) (Text.trimEnd right) := by
  induction h with
  | nil => exact .nil
  | @char quote glued c left right mark rest ih =>
    rw [Text.trimEnd_cons, Text.trimEnd_cons]
    by_cases hend : Text.trimEnd left = [] ∧ Text.isWhitespace c = true
    · rw [if_pos hend, if_pos ⟨ih.eq_nil_iff.mp hend.1, hend.2⟩]
      exact .nil
    · rw [if_neg hend, if_neg fun he => hend ⟨ih.eq_nil_iff.mpr he.1, he.2⟩]
      refine .char (fun hq => ?_) ih
      cases hhead : (Text.trimEnd left).head? with
      | none => exact isMark_none c
      | some d => exact head?_trimEnd hhead ▸ mark hq
  | @word old new left right words next rest ih =>
    obtain ⟨front, c, hold, hc⟩ := (exchange.left words).last
    obtain ⟨front', d, hnew, hd⟩ := (exchange.right words).last
    have hleft : Text.trimEnd (old ++ left) = old ++ Text.trimEnd left := by
      rw [hold, List.append_assoc, List.append_assoc]
      exact Text.trimEnd_append hc left
    have hright : Text.trimEnd (new ++ right) = new ++ Text.trimEnd right := by
      rw [hnew, List.append_assoc, List.append_assoc]
      exact Text.trimEnd_append hd right
    rw [hleft, hright]
    exact .word words (fun c hc => next c (head?_trimEnd hc)) ih

/-- Texts that differ in exchanged words do so when they are trimmed on both sides. -/
theorem trim {left right : List Char} (h : TextSwap exchange none glued left right) :
    TextSwap exchange none false (Text.trim left) (Text.trim right) :=
  h.trimStart.trimEnd

end TextSwap

/-! ## Pieces -/

/-- Pieces that differ in exchanged words, none of which a quote, a comment or a
stop runs into. -/
inductive PieceSwap (exchange : Exchange) :
    Option Char → Bool → List Script.Piece → List Script.Piece → Prop
  | nil {quote : Option Char} {glued : Bool} : PieceSwap exchange quote glued [] []
  | char {quote : Option Char} {glued : Bool} {c : Char} {left right : List Script.Piece}
      (mark : quote = none → ∀ d, left.head? = some (.char d) → isMark c (some d) = false)
      (rest : PieceSwap exchange (quoteAfter quote c) (joins c) left right) :
      PieceSwap exchange quote glued (.char c :: left) (.char c :: right)
  | gap {glued : Bool} {left right : List Script.Piece}
      (rest : PieceSwap exchange none false left right) :
      PieceSwap exchange none glued (.gap :: left) (.gap :: right)
  | stop {glued : Bool} {left right : List Script.Piece}
      (rest : PieceSwap exchange none false left right) :
      PieceSwap exchange none glued (.stop :: left) (.stop :: right)
  | word {old new : List Char} {left right : List Script.Piece} (words : exchange.words old new)
      (next : ∀ c, left.head? = some (.char c) → goesOn c = false)
      (rest : PieceSwap exchange none true left right) :
      PieceSwap exchange none false (old.map .char ++ left) (new.map .char ++ right)

namespace PieceSwap

open Script (Piece groups join spaced)

/-- What begins the text of pieces behind a character is that character of
theirs, or the space for a gap. -/
theorem head?_spaced {pieces : List Piece} (hstop : .stop ∉ pieces) {c : Char}
    (h : (spaced pieces).head? = some c) : pieces.head? = some (.char c) ∨ c = ' ' := by
  cases pieces with
  | nil => cases h
  | cons piece rest =>
    cases piece with
    | stop => exact absurd List.mem_cons_self hstop
    | gap =>
      simp only [spaced] at h
      split at h
      · cases h
      · exact .inr (Option.some.inj h).symm
    | char d =>
      rw [Script.spaced_char, List.head?_cons, Option.some.injEq] at h
      exact .inl (by rw [h]; rfl)

/-- The texts of a statement's pieces differ in the words that the pieces differ
in, in front of the gaps as well as behind them. -/
theorem text {left right : List Piece} (h : PieceSwap exchange quote glued left right)
    (hstop : .stop ∉ left) :
    TextSwap exchange quote glued (spaced left) (spaced right) ∧
      (quote = none → glued = false → TextSwap exchange none false (join left) (join right)) := by
  induction h with
  | nil => exact ⟨.nil, fun _ _ => .nil⟩
  | @char quote glued c left right mark rest ih =>
    have hrest : .stop ∉ left := fun hm => hstop (List.mem_cons_of_mem _ hm)
    have hspaced : TextSwap exchange quote glued (c :: spaced left) (c :: spaced right) := by
      refine .char (fun hq => ?_) (ih hrest).1
      cases hhead : (spaced left).head? with
      | none => exact isMark_none c
      | some d =>
        rcases head?_spaced hrest hhead with hd | rfl
        · exact mark hq d hd
        · exact isMark_space c
    rw [Script.spaced_char, Script.spaced_char, Script.join_char, Script.join_char]
    refine ⟨hspaced, fun hq hg => ?_⟩
    rw [hq, hg] at hspaced
    exact hspaced
  | @gap glued left right rest ih =>
    have hrest : .stop ∉ left := fun hm => hstop (List.mem_cons_of_mem _ hm)
    have hjoin := (ih hrest).2 rfl rfl
    rw [Script.join_gap, Script.join_gap]
    refine ⟨?_, fun _ _ => hjoin⟩
    by_cases hend : join left = []
    -- A gap at the end of a statement is dropped, in both texts or in none.
    · simp only [spaced, if_pos hend, if_pos (hjoin.eq_nil_iff.mp hend)]
      exact .nil
    · simp only [spaced, if_neg hend, if_neg fun he => hend (hjoin.eq_nil_iff.mpr he)]
      exact .char (fun _ => rfl) hjoin
  | stop rest ih => exact absurd List.mem_cons_self hstop
  | @word old new left right words next rest ih =>
    have hrest : .stop ∉ left := fun hm => hstop (List.mem_append_right _ hm)
    have hold := (exchange.left words).ne_nil
    have hnew := (exchange.right words).ne_nil
    have hspaced : TextSwap exchange none false (old ++ spaced left) (new ++ spaced right) := by
      refine .word words (fun c hc => ?_) (ih hrest).1
      rcases head?_spaced hrest hc with hc | rfl
      · exact next c hc
      · decide
    rw [Script.spaced_word hold, Script.spaced_word hnew, Script.join_word hold,
      Script.join_word hnew]
    exact ⟨hspaced, fun _ _ => hspaced⟩

/-- The first groups differ as the pieces do up to the first stop, and every
later group begins outside quotes. -/
theorem groups_cons {left right : List Piece} (h : PieceSwap exchange quote glued left right) :
    ∃ first others first' others', groups left = first :: others ∧
      groups right = first' :: others' ∧ PieceSwap exchange quote glued first first' ∧
      (∀ c, first.head? = some (.char c) → left.head? = some (.char c)) ∧
      List.Forall₂ (PieceSwap exchange none false) others others' := by
  induction h with
  | nil => exact ⟨[], [], [], [], rfl, rfl, .nil, fun _ hd => hd, .nil⟩
  | @char quote glued c left right mark rest ih =>
    obtain ⟨first, others, first', others', hl, hr, hfirst, hhead, hothers⟩ := ih
    have hc : Piece.char c ≠ .stop := by simp
    exact ⟨_, _, _, _, Script.groups_cons hc hl, Script.groups_cons hc hr,
      .char (fun hq d hd => mark hq d (hhead d hd)) hfirst, fun _ hd => hd, hothers⟩
  | @gap glued left right rest ih =>
    obtain ⟨first, others, first', others', hl, hr, hfirst, hhead, hothers⟩ := ih
    have hc : Piece.gap ≠ .stop := by simp
    exact ⟨_, _, _, _, Script.groups_cons hc hl, Script.groups_cons hc hr, .gap hfirst,
      fun _ hd => hd, hothers⟩
  | @stop glued left right rest ih =>
    obtain ⟨first, others, first', others', hl, hr, hfirst, hhead, hothers⟩ := ih
    refine ⟨[], _, [], _, rfl, rfl, .nil, fun c hc => (by cases hc), ?_⟩
    rw [hl, hr]
    exact .cons hfirst hothers
  | @word old new left right words next rest ih =>
    obtain ⟨first, others, first', others', hl, hr, hfirst, hhead, hothers⟩ := ih
    have hchars (word : List Char) : Piece.stop ∉ word.map Piece.char := by simp
    refine ⟨_, _, _, _, Script.groups_append (hchars old) hl, Script.groups_append (hchars new) hr,
      .word words (fun c hc => next c (hhead c hc)) hfirst, fun c hc => ?_, hothers⟩
    obtain ⟨d, ds, hd, _⟩ := (exchange.left words).first
    rw [hd] at hc ⊢
    exact hc

/-- The groups of pieces outside quotes differ one by one. -/
theorem groups {left right : List Piece} (h : PieceSwap exchange none false left right) :
    List.Forall₂ (PieceSwap exchange none false) (Script.groups left) (Script.groups right) := by
  obtain ⟨first, others, first', others', hl, hr, hfirst, _, hothers⟩ := h.groups_cons
  rw [hl, hr]
  exact .cons hfirst hothers

end PieceSwap

/-! ## Scripts -/

/-- Scripts that differ in exchanged words, scanned on from a mode. The words
stand outside quotes and comments. -/
inductive ScriptSwap (exchange : Exchange) :
    Script.Mode → Bool → List Char → List Char → Prop
  | nil {mode : Script.Mode} {glued : Bool} : ScriptSwap exchange mode glued [] []
  | char {mode : Script.Mode} {glued : Bool} {c : Char} {left right : List Char}
      (mark : mode = .plain → isMark c left.head? = false)
      (rest : ScriptSwap exchange (mode.after c left.head?) (joins c) left right) :
      ScriptSwap exchange mode glued (c :: left) (c :: right)
  | word {old new left right : List Char} (words : exchange.words old new)
      (next : ∀ c ∈ left.head?, goesOn c = false)
      (rest : ScriptSwap exchange .plain true left right) :
      ScriptSwap exchange .plain false (old ++ left) (new ++ right)

/-- The quote that is open in a mode. -/
def Script.Mode.quote? : Script.Mode → Option Char
  | .quoted quote => some quote
  | _ => none

namespace ScriptSwap

open Script (Mode Piece pieceAt piecesFrom)

variable {mode : Mode}

/-- Behind a character that joins, both scripts go on with the same character. -/
theorem head?_eq {left right : List Char} (h : ScriptSwap exchange mode true left right) :
    left.head? = right.head? := by
  cases h with
  | nil => rfl
  | char mark rest => rfl

/-- Only behind a dash does it matter what follows. -/
theorem after_congr {c : Char} (hc : c ≠ '-') (mode : Mode) (next next' : Option Char) :
    mode.after c next = mode.after c next' ∧ pieceAt mode c next = pieceAt mode c next' := by
  cases mode <;> simp [Mode.after, pieceAt, hc]

/-- A character means the same on either side. -/
theorem after_eq {c : Char} {left right : List Char}
    (h : ScriptSwap exchange (mode.after c left.head?) (joins c) left right) :
    mode.after c left.head? = mode.after c right.head? ∧
      pieceAt mode c left.head? = pieceAt mode c right.head? := by
  by_cases hc : c = '-'
  · subst hc
    have hjoins : joins '-' = true := by decide
    rw [hjoins] at h
    rw [h.head?_eq]
    exact ⟨rfl, rfl⟩
  · exact after_congr hc mode _ _

/-- Outside comments a character that begins the pieces begins the script. -/
theorem head?_piecesFrom {script : List Char} (hm : mode ≠ .comment) {c : Char}
    (h : (piecesFrom mode script).head? = some (.char c)) : script.head? = some c := by
  cases script with
  | nil => cases h
  | cons d rest =>
    rw [Script.piecesFrom_cons] at h
    rw [List.head?_cons, Option.some.injEq]
    cases mode with
    | comment => exact absurd rfl hm
    | quoted quote => simpa [pieceAt] using h
    | plain =>
      obtain ⟨_, _, hp, _⟩ | ⟨_, hp, _⟩ | ⟨_, hp, _⟩ | ⟨hp, _⟩ :=
        Script.plain_cases d rest.head?
      · simp [hp] at h
      · simp [hp] at h
      · simp [hp] at h
      · simpa [hp] using h

/-- The pieces of the two scripts differ in the words that the scripts differ in. -/
theorem pieces {left right : List Char} (h : ScriptSwap exchange mode glued left right) :
    PieceSwap exchange mode.quote? (mode != .comment && glued)
      (piecesFrom mode left) (piecesFrom mode right) := by
  induction h with
  | nil => exact .nil
  | @char mode glued c left right mark rest ih =>
    have hsame := after_eq rest
    rw [Script.piecesFrom_cons, Script.piecesFrom_cons, ← hsame.1, ← hsame.2]
    cases mode with
    | comment =>
      -- A comment has no pieces; its line break ends it and joins nothing.
      by_cases hc : c = '\n'
      · subst hc
        exact ih
      · have hafter (next : Option Char) : Mode.comment.after c next = .comment := by
          simp [Mode.after, hc]
        rw [hafter] at ih ⊢
        exact ih
    | quoted opened =>
      have hquote (next : Option Char) :
          ((Mode.quoted opened).after c next).quote? = quoteAfter (some opened) c := by
        by_cases hc : c = opened <;> simp [Mode.after, quoteAfter, Mode.quote?, hc]
      have hnot (next : Option Char) : ((Mode.quoted opened).after c next != .comment) = true := by
        by_cases hc : c = opened <;> simp [Mode.after, hc]
      rw [hquote, hnot, Bool.true_and] at ih
      exact .char (fun hq => by cases hq) ih
    | plain =>
      obtain ⟨_, _, hp, ha⟩ | ⟨hc, hp, ha⟩ | ⟨hc, hp, ha⟩ | ⟨hp, ha⟩ :=
        Script.plain_cases c left.head?
      · rw [ha] at ih ⊢
        rw [hp]
        exact .gap ih
      · subst hc
        rw [ha] at ih ⊢
        rw [hp]
        exact .stop ih
      · rw [ha, joins_of_isWhitespace hc] at ih
        rw [ha, hp]
        exact .gap ih
      · have hquote : (Mode.plain.after c left.head?).quote? = quoteAfter none c := by
          by_cases hq : Script.isQuote c = true <;> simp [ha, quoteAfter, Mode.quote?, hq]
        have hnot : (Mode.plain.after c left.head? != .comment) = true := by
          by_cases hq : Script.isQuote c = true <;> simp [ha, hq]
        have hne : Mode.plain.after c left.head? ≠ .comment := by simpa using hnot
        rw [hquote, hnot, Bool.true_and] at ih
        rw [hp]
        exact .char (fun _ d hd => head?_piecesFrom hne hd ▸ mark rfl) ih
  | @word old new left right words next rest ih =>
    have hold := exchange.left words
    have hnew := exchange.right words
    rw [hold.piecesFrom_append (.inl hold.getLast_ne),
      hnew.piecesFrom_append (.inl hnew.getLast_ne)]
    exact .word words (fun c hc => next c (head?_piecesFrom (by simp) hc)) ih

/-- The statements of the two scripts are as many, and differ one by one in
the words that the scripts differ in. -/
theorem statements {left right : List Char} (h : ScriptSwap exchange .plain false left right) :
    List.Forall₂ (TextSwap exchange none false) (Script.statements left)
      (Script.statements right) := by
  have hgroups := (List.forall₂_and_left _ _).mpr
    ⟨fun group hg => Script.stop_not_mem_of_mem_groups hg, h.pieces.groups⟩
  have htexts : List.Forall₂ (TextSwap exchange none false)
      ((Script.groups (piecesFrom .plain left)).map fun group => Text.trim (Script.join group))
      ((Script.groups (piecesFrom .plain right)).map fun group =>
        Text.trim (Script.join group)) := by
    rw [List.forall₂_map_left_iff, List.forall₂_map_right_iff]
    exact hgroups.imp fun group group' hg => ((hg.2.text hg.1).2 rfl rfl).trim
  refine List.rel_filter (fun text text' ht => ?_) htexts
  simp only [Bool.not_eq_true', List.isEmpty_eq_false_iff, ne_eq, ht.eq_nil_iff]

end ScriptSwap

end EmbeddedSql.Sql
