import EmbeddedSql.Text.Alphabetic
import EmbeddedSql.Text.ControlSequence
import EmbeddedSql.Text.LineBreak

/-!
# Text in lines

A text is filled into lines of a given width: every line takes as many words as
fit, with the blanks between them. A word ends where the rules for line breaks
let a line end; a hyphen ends a word only between letters or digits, and a soft
hyphen never does. A word that is longer than a line is cut. Control sequences
take no width and go with the character behind them.
-/

namespace EmbeddedSql.Text

/-- A word with the blanks behind it. -/
structure Word where
  /-- The characters of the word. -/
  letters : List Char
  /-- The number of blanks behind it. -/
  blanks : Nat
  deriving DecidableEq, Repr

namespace Word

/-- The text of a word and its blanks. -/
def text (word : Word) : List Char :=
  word.letters ++ List.replicate word.blanks ' '

/-- The number of columns that a word takes without its blanks. -/
def width (word : Word) : Nat :=
  columns word.letters

/-- Whether a character is a hyphen, seen or not. -/
def isHyphen (c : Char) : Bool :=
  c = '-' || c = '\u00AD'

/-- The flags of characters, taken away where a hyphen is in front. -/
def unhyphened : Bool → List Char → List Bool → List Bool
  | behind, c :: rest, flag :: flags => (flag && !behind) :: unhyphened (isHyphen c) rest flags
  | _, _, _ => []

/-- The flags without the last one that is set. -/
def clearLast : List Bool → List Bool
  | [] => []
  | flag :: flags => if flags.any id then flag :: clearLast flags else false :: flags

/-- Whether a word begins at each character that a text shows. If a hyphen ends
the text, the last word is one with the word before it. -/
def beginnings (shown : List Char) : List Bool :=
  let flags := unhyphened false shown (lineBreaks shown)
  if shown.getLast?.any isHyphen then clearLast flags else flags

/-- The characters of a text, each with whether a word begins there, given the
flags of those that are shown. The flag of a character goes to the control
sequences in front of it. -/
def flagged : SequenceState → List Char → List Bool → List (Bool × Char)
  | _, [], _ => []
  | state, c :: rest, flags =>
    if state.shows c then
      (flags.headD false, c) :: flagged (state.next c) rest flags.tail
    else
      match flagged (state.next c) rest flags with
      | (flag, d) :: others => (flag, c) :: (false, d) :: others
      | [] => [(false, c)]

/-- Characters in groups, a new one wherever a flag is set. -/
def groups : List (Bool × Char) → List (List Char)
  | [] => []
  | (_, c) :: rest =>
    match groups rest with
    | [] => [[c]]
    | group :: others =>
      if rest.head?.any Prod.fst then [c] :: group :: others else (c :: group) :: others

/-- The word that a text with blanks at its end is. -/
def ofText (text : List Char) : Word :=
  ⟨(text.reverse.dropWhile (· = ' ')).reverse, (text.reverse.takeWhile (· = ' ')).length⟩

/-- The words of a text. Blanks at its front stand behind an empty word. -/
def all (text : List Char) : List Word :=
  (groups (flagged .outside text (beginnings (SequenceState.outside.shown text)))).map ofText

/-- Cuts letters into pieces of at most a width, given the state at their
beginning and the width that the first piece has already. -/
def pieces (limit : Nat) : SequenceState → Nat → List Char → List (List Char)
  | _, _, [] => [[]]
  | state, width, c :: rest =>
    let own := if state.shows c then charWidth c else 0
    let full := state.shows c && 0 < width && limit < width + own
    match pieces limit (state.next c) (if full then own else width + own) rest with
    | [] => [[c]]
    | piece :: others => if full then [] :: (c :: piece) :: others else (c :: piece) :: others

/-- Letters parted behind every hyphen between a letter or digit and another,
given the character in front of them. -/
def parts (before : Option Char) : List Char → List (List Char)
  | [] => [[]]
  | c :: rest =>
    match parts (some c) rest with
    | [] => [[c]]
    | part :: others =>
      if c = '-' ∧ before.any isAlphanumeric ∧ rest.head?.any isAlphanumeric then
        [c] :: part :: others
      else (c :: part) :: others

/-- A word divided, the blanks behind the last piece. -/
def divide (word : Word) (all : List (List Char)) : List Word :=
  (all.dropLast.map fun piece => ⟨piece, 0⟩) ++ [⟨all.getLastD [], word.blanks⟩]

/-- A word parted behind its hyphens. -/
def hyphenated (word : Word) : List Word :=
  word.divide (parts none word.letters)

/-- A word cut into pieces of a width, if it is wider. -/
def cut (limit : Nat) (word : Word) : List Word :=
  if limit < word.width then word.divide (pieces limit .outside 0 word.letters) else [word]

/-- Every character of a text is flagged, in its place. -/
theorem map_snd_flagged (state : SequenceState) (text : List Char) (flags : List Bool) :
    (flagged state text flags).map Prod.snd = text := by
  induction text generalizing state flags with
  | nil => rfl
  | cons c rest ih =>
    rw [flagged]
    split
    · simp [ih]
    · have := ih (state.next c) flags
      split
      · next flag d others h =>
        rw [h] at this
        simp [← this]
      · next h =>
        rw [h] at this
        simp [← this]

/-- The groups of characters make up the characters. -/
theorem flatten_groups (text : List (Bool × Char)) :
    (groups text).flatten = text.map Prod.snd := by
  induction text with
  | nil => rfl
  | cons entry rest ih =>
    rw [groups]
    split
    · next h =>
      rw [h] at ih
      simp [← ih]
    · next group others h =>
      rw [h] at ih
      split <;> simp [← ih]

/-- As many blanks as stand at the front of a text are what stands there. -/
theorem replicate_takeWhile (t : List Char) :
    List.replicate (t.takeWhile (· = ' ')).length ' ' = t.takeWhile (· = ' ') := by
  induction t with
  | nil => rfl
  | cons c rest ih =>
    by_cases h : c = ' '
    · simp [h, List.replicate_succ, ih]
    · simp [h]

/-- A text is the word that it is, with its blanks. -/
theorem text_ofText (t : List Char) : (ofText t).text = t := by
  have h := congrArg List.reverse (replicate_takeWhile t.reverse)
  rw [List.reverse_replicate] at h
  rw [text, ofText, h, ← List.reverse_append, List.takeWhile_append_dropWhile,
    List.reverse_reverse]

/-- The words of a text make up the text. -/
theorem text_all (t : List Char) : (all t).flatMap Word.text = t := by
  have each : ∀ l : List (List Char), (l.map ofText).flatMap Word.text = l.flatten := by
    intro l
    induction l with
    | nil => rfl
    | cons head rest ih => simp [text_ofText, ← ih]
  rw [all, each, flatten_groups, map_snd_flagged]

end Word

/-- The number of columns that words take in a line, with all their blanks. -/
def lineWidth : List Word → Nat
  | [] => 0
  | word :: rest => word.width + word.blanks + lineWidth rest

/-- Puts words into lines, given the line begun. A word goes into a new line if
the line has words and no room for it. -/
def distribute (limit : Nat) : List Word → List Word → List (List Word)
  | line, [] => [line]
  | line, word :: rest =>
    if line ≠ [] ∧ limit < lineWidth line + word.width then
      line :: distribute limit [word] rest
    else distribute limit (line ++ [word]) rest

/-- The text of a line: its words with the blanks between them. -/
def lineText : List Word → List Char
  | [] => []
  | [word] => word.letters
  | word :: rest => word.text ++ lineText rest

/-- The lines of a text in a width. -/
def fill (limit : Nat) (text : List Char) : List (List Char) :=
  let words := ((Word.all text).flatMap Word.hyphenated).flatMap (Word.cut limit)
  (distribute limit [] words).map lineText

/-- The text with blanks behind it up to a number of characters. -/
def padded (length : Nat) (text : String) : String :=
  text ++ String.ofList (List.replicate (length - text.length) ' ')

example : fill 9 "one three  four-teen fourteenths".toList =
    ["one three".toList, "four-teen".toList, "fourteent".toList, "hs".toList] := by
  decide +kernel

end EmbeddedSql.Text
