import EmbeddedSql.Text.Whitespace

/-!
# Scripts and their statements

A script is a text of statements with semicolons behind them. A first scan
tells what each character of a script is for: it stands in a statement, it is
part of a gap (whitespace or a comment), or it ends a statement. Quoted text
stands as it is, whatever it holds. A statement's own text then has one space
for every gap inside it and none at its ends.
-/

namespace EmbeddedSql.Sql.Script

/-- Where a scan stands. -/
inductive Mode where
  /-- Outside quotes and comments. -/
  | plain
  /-- Behind a quote that waits for its like. -/
  | quoted (quote : Char)
  /-- In a comment, which runs to the end of its line. -/
  | comment
  deriving DecidableEq, Repr

/-- What a character of a script is for. -/
inductive Piece where
  /-- It stands in a statement. -/
  | char (c : Char)
  /-- It separates what stands around it. -/
  | gap
  /-- It ends a statement. -/
  | stop
  deriving DecidableEq, Repr

/-- Whether a character opens and closes quoted text. -/
def isQuote (c : Char) : Bool :=
  c == '\'' || c == '"'

/-- The mode behind a character, given the character after it. Two dashes begin
a comment. -/
def Mode.after (mode : Mode) (c : Char) (next : Option Char) : Mode :=
  match mode with
  | .quoted quote => if c = quote then .plain else .quoted quote
  | .comment => if c = '\n' then .plain else .comment
  | .plain =>
    if c = '-' ∧ next = some '-' then .comment
    else if isQuote c then .quoted c
    else .plain

/-- What a character is for, given the mode in front of it and the character
after it. A comment is one gap, at its first dash. -/
def pieceAt (mode : Mode) (c : Char) (next : Option Char) : Option Piece :=
  match mode with
  | .quoted _ => some (.char c)
  | .comment => none
  | .plain =>
    if c = '-' ∧ next = some '-' then some .gap
    else if c = ';' then some .stop
    else if Text.isWhitespace c then some .gap
    else some (.char c)

/-- The pieces of a text, scanned from a mode on. -/
def piecesFrom : Mode → List Char → List Piece
  | _, [] => []
  | mode, c :: rest =>
    (pieceAt mode c rest.head?).toList ++ piecesFrom (mode.after c rest.head?) rest

/-- The mode in which the scan of a text ends. -/
def modeAfter : Mode → List Char → Mode
  | mode, [] => mode
  | mode, c :: rest => modeAfter (mode.after c rest.head?) rest

/-- The pieces between the stops, one list more than there are stops. -/
def groups : List Piece → List (List Piece)
  | [] => [[]]
  | .stop :: rest => [] :: groups rest
  | piece :: rest =>
    match groups rest with
    | [] => [[piece]]
    | group :: others => (piece :: group) :: others

/-- The text of the pieces of a statement: its characters, with one space for
the gaps between two of them. -/
def join : List Piece → List Char
  | [] => []
  | .char c :: .gap :: rest =>
    match join rest with
    | [] => [c]
    | text => c :: ' ' :: text
  | .char c :: rest => c :: join rest
  | _ :: rest => join rest

/-- The statements of a script, in order. Whitespace at the end of a quoted
text that is never closed is dropped, and so are empty statements. -/
def statements (script : List Char) : List (List Char) :=
  ((groups (piecesFrom .plain script)).map fun group => Text.trim (join group)).filter
    (fun text => !text.isEmpty)

/-- The pieces of a text are those of its front and those of its back, scanned
from where the front's scan ends, unless the two meet between two dashes. -/
theorem piecesFrom_append_cons {mode : Mode} {front back : List Char} {c : Char}
    (h : c ≠ '-') :
    piecesFrom mode (front ++ c :: back) =
      piecesFrom mode front ++ piecesFrom (modeAfter mode front) (c :: back) := by
  induction front generalizing mode with
  | nil => rfl
  | cons d rest ih =>
    cases rest with
    | nil =>
      have hn : (some c = some '-') = False := by simp [h]
      have hm : ∀ mode : Mode, mode.after d (some c) = mode.after d none := by
        intro mode; cases mode <;> simp [Mode.after, h]
      have hp : ∀ mode : Mode, pieceAt mode d (some c) = pieceAt mode d none := by
        intro mode; cases mode <;> simp [pieceAt, h]
      simp [piecesFrom, modeAfter, hm, hp]
    | cons e more =>
      change (pieceAt mode d (some e)).toList ++
          piecesFrom (mode.after d (some e)) (e :: more ++ c :: back) =
        ((pieceAt mode d (some e)).toList ++ piecesFrom (mode.after d (some e)) (e :: more)) ++
          piecesFrom (modeAfter (mode.after d (some e)) (e :: more)) (c :: back)
      rw [ih, List.append_assoc]

end EmbeddedSql.Sql.Script
