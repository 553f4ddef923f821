import EmbeddedSql.Json.Numeral

/-!
# JSON values and their text

A JSON value keeps its numbers as they are written and the members of its
objects in their order, repeated names included. There are two texts of a
value: the compact one has no blanks, the pretty one a line for every item,
indented by two blanks for each level.
-/

namespace EmbeddedSql

/-- A JSON value. -/
inductive Json where
  /-- The null. -/
  | null
  /-- A truth value. -/
  | boolean (b : Bool)
  /-- A number as it is written. -/
  | number (n : Json.Numeral)
  /-- A string; none if what is written stands for no text. -/
  | string (s : Option String)
  /-- A list of values. -/
  | array (items : List Json)
  /-- Named values in the order in which they are written. -/
  | object (members : List (Option String × Json))

namespace Json

instance : Inhabited Json := ⟨.null⟩

/-- One of the sixteen digits, letters in lower case. -/
def hexDigit (n : Nat) : Char :=
  Nat.digitChar (n % 16)

/-- A character as it stands in a string: quotes, backslashes and control
characters are escaped. -/
def escape (c : Char) : List Char :=
  match c with
  | '"' => ['\\', '"']
  | '\\' => ['\\', '\\']
  | '\x08' => ['\\', 'b']
  | '\t' => ['\\', 't']
  | '\n' => ['\\', 'n']
  | '\x0c' => ['\\', 'f']
  | '\r' => ['\\', 'r']
  | c =>
    if c.toNat < 0x20 then ['\\', 'u', '0', '0', hexDigit (c.toNat / 16), hexDigit c.toNat]
    else [c]

/-- A text as a string in quotes. -/
def quote (s : String) : List Char :=
  '"' :: s.toList.flatMap escape ++ ['"']

/-- The text of a string. What stands for no text is written like an empty
one; no value that is written holds such a string. -/
def stringText (s : Option String) : List Char :=
  quote (s.getD "")

mutual

/-- The text of a value without blanks. -/
def compact : Json → List Char
  | .null => "null".toList
  | .boolean true => "true".toList
  | .boolean false => "false".toList
  | .number n => n.text
  | .string s => stringText s
  | .array items => '[' :: compactItems items ++ [']']
  | .object members => '\x7b' :: compactMembers members ++ ['\x7d']

/-- The texts of the items of a list, with commas between them. -/
def compactItems : List Json → List Char
  | [] => []
  | [item] => compact item
  | item :: rest => compact item ++ ',' :: compactItems rest

/-- The texts of the members of an object, with commas between them. -/
def compactMembers : List (Option String × Json) → List Char
  | [] => []
  | [(name, item)] => stringText name ++ ':' :: compact item
  | (name, item) :: rest => stringText name ++ ':' :: compact item ++ ',' :: compactMembers rest

end

/-- A new line at a level. -/
def newLine (level : Nat) : List Char :=
  '\n' :: List.replicate (2 * level) ' '

mutual

/-- The text of a value at a level, with a line for every item. -/
def prettyAt (level : Nat) : Json → List Char
  | .array [] => ['[', ']']
  | .array items => '[' :: prettyItems (level + 1) items ++ newLine level ++ [']']
  | .object [] => ['\x7b', '\x7d']
  | .object members => '\x7b' :: prettyMembers (level + 1) members ++ newLine level ++ ['\x7d']
  | .null => "null".toList
  | .boolean true => "true".toList
  | .boolean false => "false".toList
  | .number n => n.text
  | .string s => stringText s

/-- The lines of the items of a list. -/
def prettyItems (level : Nat) : List Json → List Char
  | [] => []
  | [item] => newLine level ++ prettyAt level item
  | item :: rest => newLine level ++ prettyAt level item ++ ',' :: prettyItems level rest

/-- The lines of the members of an object. -/
def prettyMembers (level : Nat) : List (Option String × Json) → List Char
  | [] => []
  | [(name, item)] => newLine level ++ stringText name ++ ':' :: ' ' :: prettyAt level item
  | (name, item) :: rest =>
    newLine level ++ stringText name ++ ':' :: ' ' :: prettyAt level item ++
      ',' :: prettyMembers level rest

end

/-- The text of a value with a line for every item. -/
def pretty (value : Json) : List Char :=
  prettyAt 0 value

end Json

end EmbeddedSql
