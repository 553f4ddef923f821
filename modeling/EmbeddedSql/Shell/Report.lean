import EmbeddedSql.Error
import EmbeddedSql.Text.Fill
import EmbeddedSql.Text.Utf8

/-!
# Reports of errors

A report shows an error in a few lines: its code, its message, the marked place
of the statement if there is one, and its advice. No line of the message or the
advice is wider than a fixed number of columns.
-/

namespace EmbeddedSql.Shell

/-- The number of columns to which the lines of a report are filled. -/
def reportWidth : Nat :=
  78

/-- The distance of tab stops. -/
def tabWidth : Nat :=
  4

/-- A text in lines, of which the first begins with a mark and the others with
another mark of the same width. -/
def paragraph (first next : String) (text : String) : List String :=
  let lines := (text.splitOn "\n").flatMap fun line =>
    Text.fill (reportWidth - first.length) line.toList
  match lines.map String.ofList with
  | [] => []
  | line :: rest => (first ++ line) :: rest.map (next ++ ·)

/-- The characters of a text that lie within so many bytes, and the others. -/
def splitAtByte : Nat → List Char → List Char × List Char
  | _, [] => ([], [])
  | bytes, c :: rest =>
    if bytes < c.utf8Size then ([], c :: rest)
    else
      let (inside, outside) := splitAtByte (bytes - c.utf8Size) rest
      (c :: inside, outside)

/-- A number of blanks. -/
def blanks (count : Nat) : String :=
  String.ofList (List.replicate count ' ')

/-- A number of underlining marks. -/
def marks (count : Nat) : String :=
  String.ofList (List.replicate count '^')

/-- The characters of a line, each with the columns that it takes, given whether
they stand in a sequence that sets colours and how many columns are in front.
Such a sequence goes from an escape character to the letter m. -/
def cells (coloured : Bool) (column : Nat) : List Char → List (Char × Nat)
  | [] => []
  | c :: rest =>
    if coloured then (c, 0) :: cells (c ≠ 'm') column rest
    else if c = '\x1b' then (c, 0) :: cells true column rest
    else
      let width := if c = '\t' then tabWidth - column % tabWidth else Text.charWidth c
      (c, width) :: cells false (column + width) rest

/-- The number of columns that a line takes. -/
def lineColumns (line : List Char) : Nat :=
  (cells false 0 line).foldl (fun total cell => total + cell.2) 0

/-- A line with every tab replaced by blanks. -/
def expanded (line : List Char) : String :=
  String.ofList ((cells false 0 line).flatMap fun cell =>
    if cell.1 = '\t' then List.replicate cell.2 ' ' else [cell.1])

/-- The line of a statement in which a stretch begins, with the stretch
underlined and a label below its middle. -/
def excerpt (statement : List Char) (span : Sql.Span) (label : String) : List String :=
  let (before, rest) := splitAtByte span.offset statement
  let front := (before.reverse.takeWhile (· ≠ '\n')).reverse
  let marked := (splitAtByte span.length rest).1.takeWhile (· ≠ '\n')
  let line := front ++ rest.takeWhile (· ≠ '\n')
  let start := lineColumns front
  let stop := max (start + 1) (lineColumns (front ++ marked))
  let middle := (start + stop) / 2
  let number := toString (before.count '\n' + 1)
  let margin := blanks (number.length + 2)
  [margin ++ ",----",
   " " ++ number ++ " | " ++ expanded line,
   margin ++ ": " ++ blanks start ++ marks (middle - start) ++ "|" ++ marks (stop - middle - 1),
   margin ++ ": " ++ blanks middle ++ "`-- " ++ label,
   margin ++ "`----"]

/-- The message of an error. Where the error has none of its own it is said
what has failed. -/
def messageOf (error : Error) : String :=
  match error.message?, error with
  | some message, _ => message
  | none, .storage .undecodable => "stored document is not valid"
  | none, _ => "storage I/O failed"

/-- The lines of a report on an error, with an excerpt if the statement is
given. -/
def reportLines (error : Error) (statement : Option (List Char)) : List String :=
  let shown :=
    match error.mark?, statement with
    | some (span, label), some statement => excerpt statement span label
    | _, _ => []
  let advice :=
    match error.help? with
    | some help => paragraph "  help: " "        " help
    | none => []
  [error.code, ""] ++ paragraph "  x " "  | " (messageOf error) ++ shown ++ advice ++ [""]

/-- Lines as a text, a line break behind each. -/
def unlines (lines : List String) : String :=
  String.join (lines.map (· ++ "\n"))

/-- A report on an error. -/
def report (error : Error) (statement : Option (List Char)) : String :=
  unlines (reportLines error statement)

end EmbeddedSql.Shell
