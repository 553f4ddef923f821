import EmbeddedSql.Text.Width

/-!
# Control sequences

A text for a terminal can hold sequences that begin with an escape character
and show nothing: an opening bracket begins one that ends with its first letter,
a closing bracket begins a command that ends with a bell or a string terminator,
and any other character is a sequence by itself. What a text shows is what lies
outside of them.
-/

namespace EmbeddedSql.Text

/-- Where a text stands as to control sequences. -/
inductive SequenceState where
  /-- Outside. -/
  | outside
  /-- Behind an escape character. -/
  | begun
  /-- In a sequence that ends with a letter. -/
  | parameters
  /-- In a command, of which this character was read last. -/
  | command (last : Char)
  deriving DecidableEq, Repr

namespace SequenceState

/-- The escape character. -/
def escape : Char :=
  '\x1b'

/-- Whether a character is shown in a state. -/
def shows (state : SequenceState) (c : Char) : Bool :=
  state = .outside && c ≠ escape

/-- The state behind a character. -/
def next : SequenceState → Char → SequenceState
  | .outside, c => if c = escape then .begun else .outside
  | .begun, c =>
    if c = '[' then .parameters
    else if c = ']' then .command ']'
    else .outside
  | .parameters, c => if '@' ≤ c ∧ c ≤ '~' then .outside else .parameters
  | .command last, c =>
    if c = '\x07' ∨ c = '\\' ∧ last = escape then .outside else .command c

/-- The characters of a text that are shown, from a state on. -/
def shown (state : SequenceState) : List Char → List Char
  | [] => []
  | c :: rest => if state.shows c then c :: shown (state.next c) rest else shown (state.next c) rest

end SequenceState

/-- The number of columns that characters take together. -/
def totalWidth : List Char → Nat
  | [] => 0
  | c :: rest => charWidth c + totalWidth rest

/-- The number of columns that a text takes. -/
def columns (text : List Char) : Nat :=
  totalWidth (SequenceState.outside.shown text)

example : columns "\x1b[1;31m表\x1b[0mab\x1b]8;;x\x1b\\c".toList = 5 := by decide +kernel

end EmbeddedSql.Text
