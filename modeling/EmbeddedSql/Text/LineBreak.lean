import EmbeddedSql.Text.LineClass

/-!
# Where a line may end

The rules tell for every place between two characters whether a line may end
there. They look at the class of the character behind the place and at what is
in front of it: the class of the last character that is neither a blank nor a
combining mark, and whether blanks follow it. A combining mark belongs to the
character before it. Of the rules that apply the first one decides.
-/

namespace EmbeddedSql.Text

/-- What is in front of a place. -/
structure LineContext where
  /-- The class of the last character that is no blank. -/
  last : LineClass
  /-- Whether blanks follow it. -/
  blanks : Bool
  /-- Whether the last character is a joiner. -/
  joined : Bool
  /-- Whether the last character is a hyphen behind a Hebrew letter. -/
  hebrewHyphen : Bool
  /-- Whether an odd number of letters of flags ends here. -/
  halfFlag : Bool
  deriving DecidableEq, Repr

namespace LineContext

/-- Whether the line ends after a class in any case. -/
def endsLine : LineClass → Bool
  | .mandatory | .carriageReturn | .lineFeed | .nextLine => true
  | _ => false

/-- Letters of any script. -/
def letters : List LineClass :=
  [.alphabetic, .hebrew]

/-- Ideographs and pictures. -/
def pictures : List LineClass :=
  [.ideographic, .emojiBase, .emojiModifier]

/-- Korean letters and syllables. -/
def korean : List LineClass :=
  [.leadingJamo, .vowelJamo, .trailingJamo, .openSyllable, .closedSyllable]

/-- Classes of which the first does not part from the second: words, numbers
with their signs, Korean syllables, brackets beside words, and pictures with
their colour. -/
def pairs : List (List LineClass × List LineClass) :=
  [(letters, [.numeric]), ([.numeric], letters),
   ([.unitBefore], pictures), (pictures, [.unitAfter]),
   ([.unitBefore, .unitAfter], letters), (letters, [.unitBefore, .unitAfter]),
   ([.closing, .closingParenthesis, .numeric], [.unitAfter, .unitBefore]),
   ([.unitAfter, .unitBefore], [.opening, .numeric]),
   ([.hyphen, .separator, .numeric, .slash], [.numeric]),
   ([.leadingJamo], [.leadingJamo, .vowelJamo, .openSyllable, .closedSyllable]),
   ([.vowelJamo, .openSyllable], [.vowelJamo, .trailingJamo]),
   ([.trailingJamo, .closedSyllable], [.trailingJamo]),
   (korean, [.unitAfter]), ([.unitBefore], korean),
   (letters, letters), ([.separator], letters),
   (.numeric :: letters, [.opening]), ([.closingParenthesis], .numeric :: letters),
   ([.emojiBase], [.emojiModifier])]

/-- Whether two classes are kept together. -/
def keeps (first second : LineClass) : Bool :=
  pairs.any fun pair => first ∈ pair.1 && second ∈ pair.2

/-- Whether a line may end between a context without blanks at its end and a
character. -/
def permitsTight (context : LineContext) (c : LineClass) : Bool :=
  if c = .quotation ∨ context.last = .quotation then false
  else if c = .contingent ∨ context.last = .contingent then true
  else if c ∈ [.breakAfter, .hyphen, .nonstarter] ∨ context.last = .breakBefore then false
  else if context.hebrewHyphen then false
  else if context.last = .slash ∧ c = .hebrew then false
  else if c = .inseparable then false
  else if context.last = .regional ∧ c = .regional then !context.halfFlag
  else !keeps context.last c

/-- Whether a line may end between a context and a character. -/
def permits (context : LineContext) (c : LineClass) : Bool :=
  let tight := !context.blanks
  if tight ∧ endsLine context.last then
    ¬ (context.last = .carriageReturn ∧ c = .lineFeed)
  else if endsLine c ∨ c = .blank ∨ c = .zeroBlank then false
  else if context.last = .zeroBlank then true
  else if context.joined then false
  else if c = .wordJoiner ∨ tight ∧ context.last = .wordJoiner then false
  else if tight ∧ context.last = .glue then false
  else if tight ∧ c = .glue ∧ context.last ∉ [.breakAfter, .hyphen] then false
  else if c ∈ [.closing, .closingParenthesis, .exclamation, .separator, .slash] then false
  else if context.last = .opening then false
  else if context.last = .quotation ∧ c = .opening then false
  else if context.last ∈ [.closing, .closingParenthesis] ∧ c = .nonstarter then false
  else if context.last = .breakBoth ∧ c = .breakBoth then false
  else if context.blanks then true
  else permitsTight context c

/-- The context behind a character that is no combining mark. -/
def after (context : Option LineContext) (c : LineClass) : LineContext :=
  let tight := context.filter fun x => !x.blanks
  if c = .blank then
    match context with
    | some x => ⟨x.last, true, false, false, false⟩
    | none => ⟨.blank, true, false, false, false⟩
  else
    ⟨c, false, false,
      (c = .hyphen || c = .breakAfter) && tight.any (·.last = .hebrew),
      c = .regional && !tight.any (·.halfFlag)⟩

/-- Whether a combining mark behind a context belongs to its last character. -/
def takesMark (context : LineContext) : Bool :=
  !context.blanks && !endsLine context.last && context.last ≠ .zeroBlank

/-- Whether a line may end in front of a character, and the context behind it. A
combining mark that has nothing to belong to counts as a letter. -/
def read (context : Option LineContext) (c : LineClass) : Bool × LineContext :=
  let mark := c = .combining ∨ c = .joiner
  match context.filter takesMark with
  | some x =>
    if mark then (false, { x with joined := c = .joiner }) else (permits x c, after context c)
  | none =>
    let counted : LineClass := if mark then .alphabetic else c
    (context.any (permits · counted), { after context counted with joined := c = .joiner })

/-- Whether a line may end in front of each of the characters that follow a
context. -/
def breaks : Option LineContext → List Char → List Bool
  | _, [] => []
  | context, c :: rest =>
    (read context (.ofChar c)).1 :: breaks (some (read context (.ofChar c)).2) rest

end LineContext

/-- Whether a line may end in front of each character of a text. -/
def lineBreaks (text : List Char) : List Bool :=
  LineContext.breaks none text

example : lineBreaks "a|b (c) !".toList =
    [false, false, true, false, true, false, false, false, false] := by decide +kernel

end EmbeddedSql.Text
