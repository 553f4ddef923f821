import EmbeddedSql.Proofs.Json.Numerals
import Mathlib.Data.List.DropRight

/-!
# Layouts of JSON values

A JSON value can be laid out as a text in many ways: blanks may stand around
every token. Whatever the layout, the reader brings back the value; the compact
and the pretty text are two of the layouts.
-/

namespace EmbeddedSql.Json

/-- The value holds no string that stands for no text, and the digits of its
numbers are digits. -/
inductive Plain : Json → Prop
  | null : Plain .null
  | boolean (b : Bool) : Plain (.boolean b)
  | number {n : Numeral} (wellFormed : n.WellFormed) : Plain (.number n)
  | string (s : String) : Plain (.string (some s))
  | array {items : List Json} (plain : ∀ item ∈ items, Plain item) : Plain (.array items)
  | object {members : List (Option String × Json)}
      (named : ∀ member ∈ members, member.1.isSome = true)
      (plain : ∀ member ∈ members, Plain member.2) : Plain (.object members)

/-- Blanks only. -/
def Blank (gap : List Char) : Prop :=
  ∀ c ∈ gap, Reader.isBlank (some c) = true

mutual

/-- The layouts of a value. -/
inductive Lays : Json → List Char → Prop
  | null : Lays .null "null".toList
  | true : Lays (.boolean true) "true".toList
  | false : Lays (.boolean false) "false".toList
  | number {n : Numeral} (wellFormed : n.WellFormed) : Lays (.number n) n.text
  | string (s : String) : Lays (.string (some s)) (quote s)
  | noItems {gap : List Char} (blank : Blank gap) : Lays (.array []) ('[' :: gap ++ [']'])
  | items {items : List Json} {text : List Char} (lays : LaysItems items text) :
      Lays (.array items) ('[' :: text ++ [']'])
  | noMembers {gap : List Char} (blank : Blank gap) :
      Lays (.object []) ('\x7b' :: gap ++ ['\x7d'])
  | members {members : List (Option String × Json)} {text : List Char}
      (lays : LaysMembers members text) : Lays (.object members) ('\x7b' :: text ++ ['\x7d'])

/-- The layouts of the items of a list, without its brackets. -/
inductive LaysItems : List Json → List Char → Prop
  | last {item : Json} {front text back : List Char} (blank : Blank front) (lays : Lays item text)
      (ends : Blank back) : LaysItems [item] (front ++ (text ++ back))
  | cons {item : Json} {items : List Json} {front text back more : List Char}
      (blank : Blank front) (lays : Lays item text) (ends : Blank back)
      (rest : LaysItems items more) :
      LaysItems (item :: items) (front ++ (text ++ (back ++ ',' :: more)))

/-- The layouts of the members of an object, without its brackets. -/
inductive LaysMembers : List (Option String × Json) → List Char → Prop
  | last {name : String} {item : Json} {front colon gap text back : List Char}
      (blank : Blank front) (before : Blank colon) (behind : Blank gap) (lays : Lays item text)
      (ends : Blank back) :
      LaysMembers [(some name, item)]
        (front ++ (quote name ++ (colon ++ ':' :: (gap ++ (text ++ back)))))
  | cons {name : String} {item : Json} {members : List (Option String × Json)}
      {front colon gap text back more : List Char} (blank : Blank front) (before : Blank colon)
      (behind : Blank gap) (lays : Lays item text) (ends : Blank back)
      (rest : LaysMembers members more) :
      LaysMembers ((some name, item) :: members)
        (front ++ (quote name ++ (colon ++ ':' :: (gap ++ (text ++ (back ++ ',' :: more))))))

end

namespace Reader

-- The readers call each other, so their equations take long to derive: here once for all proofs.
attribute [local simp] pieces value items members

/-! ## Blanks -/

/-- Blanks in front are skipped. -/
theorem skipBlanks_append {gap : List Char} (h : Blank gap) (source : Source) :
    skipBlanks (gap.map some ++ source) = skipBlanks source := by
  have hall : ∀ c ∈ gap.map some, isBlank c = true := by
    intro c hc
    obtain ⟨d, hm, rfl⟩ := List.mem_map.mp hc
    exact h d hm
  exact List.dropWhile_append_of_pos hall

/-- Nothing is skipped in front of a character that is not blank. -/
theorem skipBlanks_cons {c : Char} (h : isBlank (some c) = false) (source : Source) :
    skipBlanks (some c :: source) = some c :: source :=
  List.dropWhile_cons_of_neg (by rw [h]; nofun)

/-- Blanks are skipped up to a character that is not blank. -/
theorem skipBlanks_gap {gap : List Char} (h : Blank gap) {c : Char}
    (hc : isBlank (some c) = false) (source : Source) :
    skipBlanks (gap.map some ++ some c :: source) = some c :: source := by
  rw [skipBlanks_append h, skipBlanks_cons hc]

/-- At the end of the text a number does not go on. -/
theorem endsNumber_nil : EndsNumber [] :=
  ⟨rfl, nofun, nofun, nofun⟩

/-- A number ends before a comma or a closing bracket. -/
theorem endsNumber_cons {c : Char} (hc : c = ',' ∨ c = ']' ∨ c = '\x7d') (source : Source) :
    EndsNumber (some c :: source) := by
  obtain rfl | rfl | rfl := hc <;> exact ⟨rfl, nofun, nofun, nofun⟩

/-- Blanks may stand in between. -/
theorem EndsNumber.gap {source : Source} (hs : EndsNumber source) {gap : List Char}
    (h : Blank gap) : EndsNumber (gap.map some ++ source) := by
  cases gap with
  | nil => exact hs
  | cons c gap =>
    have hc := h c List.mem_cons_self
    simp only [isBlank, Bool.or_eq_true, beq_iff_eq, Option.some.injEq] at hc
    obtain ((rfl | rfl) | rfl) | rfl := hc <;> exact ⟨rfl, nofun, nofun, nofun⟩

/-- When blanks have been skipped there are none left to skip. -/
theorem skipBlanks_skipBlanks (source : Source) :
    skipBlanks (skipBlanks source) = skipBlanks source :=
  List.dropWhile_idempotent _ _

/-- Blanks in front of a value make no difference. -/
theorem value_congr {a b : Source} (h : skipBlanks a = skipBlanks b) (steps : Nat) :
    value steps a = value steps b := by
  cases steps with
  | zero => rw [value, value]
  | succ steps => rw [value, value, h]

/-- Items are read past blanks in front of them. -/
theorem items_skipBlanks (steps : Nat) (source : Source) :
    items steps (skipBlanks source) = items steps source := by
  cases steps with
  | zero => rw [items, items]
  | succ steps => rw [items, items, value_congr (skipBlanks_skipBlanks source)]

/-- Members are read past blanks in front of them. -/
theorem members_skipBlanks (steps : Nat) (source : Source) :
    members steps (skipBlanks source) = members steps source := by
  cases steps with
  | zero => rw [members, members]
  | succ steps => rw [members, members, skipBlanks_skipBlanks]

/-! ## Strings -/

/-- The piece that a character of a string is read as. -/
def pieceOf (c : Char) : Piece :=
  if c.toNat < 0x20 ∧ c ≠ '\x08' ∧ c ≠ '\t' ∧ c ≠ '\n' ∧ c ≠ '\x0c' ∧ c ≠ '\r' then .unit c.toNat
  else .char c

/-- The escape of a control character is read as its code. -/
theorem unit?_control : ∀ n < 0x20, unit? '0' '0' (hexDigit (n / 16)) (hexDigit n) = some n := by
  decide

/-- A piece in front of what is read. -/
def behind (piece : Piece) (read : Option (List Piece × Source)) : Option (List Piece × Source) :=
  read.map fun (more, rest) => (piece :: more, rest)

/-- A short escape is read as its character. -/
theorem pieces_short {c d : Char} (hc : escaped? c = some d) (source : Source) :
    pieces (some '\\' :: some c :: source) = behind (.char d) (pieces source) := by
  rw [pieces, hc]
  · cases pieces source <;> rfl
  · rintro a b c' d' rest - rfl
    exact nomatch (show none = some d from hc)

/-- A character that needs no escape is read as itself. -/
theorem pieces_char {c : Char} (hq : c ≠ '"') (hb : c ≠ '\\') (hc : ¬ c.toNat < 0x20)
    (source : Source) : pieces (some c :: source) = behind (.char c) (pieces source) := by
  rw [pieces, if_neg hc]
  · cases pieces source <;> rfl
  · exact hq
  · exact fun _ _ _ _ _ _ => hb
  · exact fun _ _ _ => hb
  · exact hb

/-- A character is read as its piece. -/
theorem pieces_escape (c : Char) (source : Source) :
    pieces ((escape c).map some ++ source) = behind (pieceOf c) (pieces source) := by
  unfold escape
  split
  case h_8 _ hquote hslash h3 h4 h5 h6 h7 =>
    split
    next hc =>
      have hp : pieceOf c = .unit c.toNat := if_pos ⟨hc, h3, h4, h5, h6, h7⟩
      have hunit := unit?_control c.toNat hc
      simp only [List.map_cons, List.map_nil, List.cons_append, List.nil_append, pieces, hunit, hp]
      cases pieces source <;> rfl
    next hc =>
      have hp : pieceOf c = .char c := if_neg fun h => hc h.1
      rw [hp]
      exact pieces_char hquote hslash hc source
  all_goals exact pieces_short rfl source

/-- The pieces of a text are read back from its string. -/
theorem pieces_quote (text : List Char) (rest : Source) :
    pieces ((text.flatMap escape).map some ++ some '"' :: rest) =
      some (text.map pieceOf, rest) := by
  induction text with
  | nil => rw [List.flatMap_nil, List.map_nil, List.nil_append, pieces, List.map_nil]
  | cons c text ih =>
    rw [List.flatMap_cons, List.map_append, List.append_assoc, pieces_escape, ih]
    rfl

/-- Sixteen bits of a control character stand for it. -/
theorem textOfPieces_unit {n : Nat} (hn : n < 0x20) (rest : List Piece) :
    textOfPieces (.unit n :: rest) = (textOfPieces rest).map (Char.ofNat n :: ·) := by
  have hhigh : isHigh n = false := by
    rw [isHigh, Bool.and_eq_false_iff, decide_eq_false_iff_not]
    omega
  have hlow : isLow n = false := by
    rw [isLow, Bool.and_eq_false_iff, decide_eq_false_iff_not]
    omega
  cases rest with
  | nil => simp only [textOfPieces, hhigh, hlow, Bool.or_self, Bool.false_eq_true, if_false]
  | cons piece rest =>
    cases piece <;>
      simp only [textOfPieces, hhigh, hlow, Bool.or_self, Bool.false_eq_true, if_false]

/-- Pieces of characters stand for the characters. -/
theorem textOfPieces_pieceOf (text : List Char) : textOfPieces (text.map pieceOf) = some text := by
  induction text with
  | nil => rfl
  | cons c text ih =>
    rw [List.map_cons, pieceOf]
    split
    next hc => rw [textOfPieces_unit hc.1, ih, Option.map_some, Char.ofNat_toNat]
    next => rw [textOfPieces, ih, Option.map_some]

/-- A text is read back from its string. -/
theorem string_quote (s : String) (rest : Source) :
    string ((s.toList.flatMap escape).map some ++ some '"' :: rest) = some (some s, rest) := by
  rw [string, pieces_quote]
  simp only [Option.bind_eq_bind, Option.bind_some, textOfPieces_pieceOf, Option.map_some,
    String.ofList_toList]

/-! ## Values -/

variable {steps : Nat} {source rest : Source}

/-- A string between quotes is a value. -/
theorem value_string {s : Option String} {more : Source}
    (hs : skipBlanks source = some '"' :: rest) (h : string rest = some (s, more)) :
    value (steps + 1) source = some (.string s, more) := by
  simp only [value, hs, h, Option.bind_eq_bind, Option.bind_some]

/-- Brackets with only blanks between them are a list without items. -/
theorem value_noItems {more : Source} (hs : skipBlanks source = some '[' :: rest)
    (h : skipBlanks rest = some ']' :: more) :
    value (steps + 1) source = some (.array [], more) := by
  simp only [value, hs, h]

/-- Items between brackets are a list. -/
theorem value_items {list : List Json} {more : Source} (hs : skipBlanks source = some '[' :: rest)
    (hne : (skipBlanks rest).head? ≠ some (some ']')) (h : items steps rest = some (list, more)) :
    value (steps + 1) source = some (.array list, more) := by
  simp only [value, hs]
  split
  next he => exact absurd (congrArg List.head? he) hne
  next => rw [items_skipBlanks, h, Option.bind_eq_bind, Option.bind_some]

/-- Braces with only blanks between them are an object without members. -/
theorem value_noMembers {more : Source} (hs : skipBlanks source = some '\x7b' :: rest)
    (h : skipBlanks rest = some '\x7d' :: more) :
    value (steps + 1) source = some (.object [], more) := by
  simp only [value, hs, h]

/-- Members between braces are an object. -/
theorem value_members {list : List (Option String × Json)} {more : Source}
    (hs : skipBlanks source = some '\x7b' :: rest)
    (hne : (skipBlanks rest).head? ≠ some (some '\x7d'))
    (h : members steps rest = some (list, more)) :
    value (steps + 1) source = some (.object list, more) := by
  simp only [value, hs]
  split
  next he => exact absurd (congrArg List.head? he) hne
  next => rw [members_skipBlanks, h, Option.bind_eq_bind, Option.bind_some]

/-- What begins with a minus sign or a digit is read as a number. -/
theorem value_number {n : Numeral} {c : Char} {more : Source}
    (hs : skipBlanks source = some c :: rest) (hc : c = '-' ∨ c.isDigit = true)
    (h : number (some c :: rest) = some (n, more)) :
    value (steps + 1) source = some (.number n, more) := by
  simp only [value, hs]
  split
  case h_7 => rw [h, Option.bind_eq_bind, Option.bind_some]
  all_goals
    next he =>
      obtain rfl := Option.some.inj (List.cons.inj he).1
      exact absurd hc (by decide)

/-- An item in front of the closing bracket is the last one. -/
theorem items_last {item : Json} {more : Source} (hv : value steps source = some (item, rest))
    (hr : skipBlanks rest = some ']' :: more) : items (steps + 1) source = some ([item], more) := by
  simp only [items, hv, hr, Option.bind_eq_bind, Option.bind_some]

/-- An item in front of a comma is followed by the others. -/
theorem items_cons {item : Json} {list : List Json} {next more : Source}
    (hv : value steps source = some (item, rest)) (hr : skipBlanks rest = some ',' :: next)
    (hn : items steps next = some (list, more)) :
    items (steps + 1) source = some (item :: list, more) := by
  simp only [items, hv, hr, hn, Option.bind_eq_bind, Option.bind_some]

/-- A name, a colon and a value are read in front of the rest. -/
def ReadsMember (steps : Nat) (source : Source) (name : Option String) (item : Json)
    (rest : Source) : Prop :=
  ∃ named colon behind, skipBlanks source = some '"' :: named ∧
    string named = some (name, colon) ∧ skipBlanks colon = some ':' :: behind ∧
    value steps behind = some (item, rest)

/-- A member in front of the closing brace is the last one. -/
theorem members_last {name : Option String} {item : Json} {more : Source}
    (hm : ReadsMember steps source name item rest) (hr : skipBlanks rest = some '\x7d' :: more) :
    members (steps + 1) source = some ([(name, item)], more) := by
  obtain ⟨named, colon, behind, hs, hstring, hcolon, hvalue⟩ := hm
  simp only [members, hs, hstring, hcolon, hvalue, hr, Option.bind_eq_bind, Option.bind_some]

/-- A member in front of a comma is followed by the others. -/
theorem members_cons {name : Option String} {item : Json} {list : List (Option String × Json)}
    {next more : Source} (hm : ReadsMember steps source name item rest)
    (hr : skipBlanks rest = some ',' :: next) (hn : members steps next = some (list, more)) :
    members (steps + 1) source = some ((name, item) :: list, more) := by
  obtain ⟨named, colon, behind, hs, hstring, hcolon, hvalue⟩ := hm
  simp only [members, hs, hstring, hcolon, hvalue, hr, hn, Option.bind_eq_bind, Option.bind_some]

/-! ## Layouts -/

/-- A number begins with a minus sign or a digit. -/
theorem exists_text (n : Numeral) :
    ∃ c more, n.text = c :: more ∧ (c = '-' ∨ c.isDigit = true) := by
  rw [Numeral.text_eq]
  cases n.negative with
  | true => exact ⟨'-', _, rfl, .inl rfl⟩
  | false =>
    obtain ⟨c, more, hd⟩ := List.exists_cons_of_ne_nil
      (Nat.toDigits_ne_nil : Nat.toDigits 10 n.whole ≠ [])
    refine ⟨c, _, by rw [hd]; rfl, .inr (isDigit_toDigits n.whole c ?_)⟩
    rw [hd]
    exact List.mem_cons_self

/-- The layout of a value begins with neither a blank nor a closing bracket. -/
theorem exists_lays {value : Json} {text : List Char} (h : Lays value text) :
    ∃ c more, text = c :: more ∧ isBlank (some c) = false ∧ c ≠ ']' := by
  cases h with
  | @number n wellFormed =>
    obtain ⟨c, more, htext, hc⟩ := exists_text n
    refine ⟨c, more, htext, ?_, ?_⟩
    · rw [isBlank, Bool.or_eq_false_iff, Bool.or_eq_false_iff, Bool.or_eq_false_iff]
      simp only [beq_eq_false_iff_ne, ne_eq, Option.some.injEq]
      refine ⟨⟨⟨?_, ?_⟩, ?_⟩, ?_⟩ <;>
      · rintro rfl
        exact absurd hc (by decide)
    · rintro rfl
      exact absurd hc (by decide)
  | null => exact ⟨_, _, rfl, rfl, by decide⟩
  | true => exact ⟨_, _, rfl, rfl, by decide⟩
  | false => exact ⟨_, _, rfl, rfl, by decide⟩
  | string s => exact ⟨_, _, rfl, rfl, by decide⟩
  | noItems => exact ⟨_, _, rfl, rfl, by decide⟩
  | items => exact ⟨_, _, rfl, rfl, by decide⟩
  | noMembers => exact ⟨_, _, rfl, rfl, by decide⟩
  | members => exact ⟨_, _, rfl, rfl, by decide⟩

/-- A layout begins with a character that is not blank, so only the blanks in front of it are
skipped. -/
theorem skipBlanks_lays {value : Json} {text : List Char} (h : Lays value text)
    {front : List Char} (blank : Blank front) (rest : Source) :
    skipBlanks (front.map some ++ (text.map some ++ rest)) = text.map some ++ rest := by
  obtain ⟨c, more, rfl, hc, _⟩ := exists_lays h
  exact skipBlanks_gap blank hc _

/-- A member is read behind blanks. -/
theorem member_lays {name : String} {item : Json} {front colon gap text : List Char}
    (blank : Blank front) (before : Blank colon) {steps : Nat} {rest : Source}
    (h : value steps (gap.map some ++ (text.map some ++ rest)) = some (item, rest)) :
    ReadsMember steps (front.map some ++ ((quote name).map some ++ (colon.map some ++
      some ':' :: (gap.map some ++ (text.map some ++ rest))))) (some name) item rest := by
  have hquote (back : Source) : (quote name).map some ++ back =
      some '"' :: ((name.toList.flatMap escape).map some ++ some '"' :: back) := by
    simp only [quote, List.cons_append, List.map_cons, List.map_append, List.map_nil,
      List.append_assoc, List.nil_append]
  refine ⟨_, _, _, ?_, string_quote name _, skipBlanks_gap before rfl _, h⟩
  rw [hquote]
  exact skipBlanks_gap blank rfl _

/-- The layout of a list's items does not begin with the closing bracket. -/
theorem head?_skipBlanks_items {list : List Json} {text : List Char} (h : LaysItems list text)
    (source : Source) : (skipBlanks (text.map some ++ source)).head? ≠ some (some ']') := by
  cases h with
  | last blank lays ends =>
    obtain ⟨c, more, rfl, hc, hne⟩ := exists_lays lays
    simp only [List.map_append, List.append_assoc, List.map_cons, List.cons_append]
    rw [skipBlanks_gap blank hc]
    exact fun he => hne (Option.some.inj (Option.some.inj he))
  | cons blank lays ends rest =>
    obtain ⟨c, more, rfl, hc, hne⟩ := exists_lays lays
    simp only [List.map_append, List.append_assoc, List.map_cons, List.cons_append]
    rw [skipBlanks_gap blank hc]
    exact fun he => hne (Option.some.inj (Option.some.inj he))

/-- Nor does the layout of an object's members. -/
theorem head?_skipBlanks_members {list : List (Option String × Json)} {text : List Char}
    (h : LaysMembers list text) (source : Source) :
    (skipBlanks (text.map some ++ source)).head? ≠ some (some '\x7d') := by
  cases h with
  | last blank =>
    simp only [quote, List.map_append, List.append_assoc, List.map_cons, List.cons_append]
    rw [skipBlanks_gap blank rfl]
    nofun
  | cons blank =>
    simp only [quote, List.map_append, List.append_assoc, List.map_cons, List.cons_append]
    rw [skipBlanks_gap blank rfl]
    nofun

mutual

/-- A value is read back from each of its layouts. -/
theorem value_lays {v : Json} {text : List Char} (h : Lays v text) {steps : Nat}
    (hs : text.length < steps) {rest : Source} (hr : EndsNumber rest) {front : List Char}
    (blank : Blank front) :
    value steps (front.map some ++ (text.map some ++ rest)) = some (v, rest) := by
  -- There are more steps than characters, so there is one for the value itself.
  obtain ⟨steps, rfl⟩ : ∃ n, steps = n + 1 := ⟨steps - 1, by omega⟩
  have hskip := skipBlanks_lays h blank rest
  cases h with
  | null => rw [value, hskip]; rfl
  | true => rw [value, hskip]; rfl
  | false => rw [value, hskip]; rfl
  | @number n wellFormed =>
    obtain ⟨c, more, htext, hc⟩ := exists_text n
    have hnumber := number_append wellFormed hr
    rw [htext] at hskip hnumber
    rw [htext]
    exact value_number hskip hc hnumber
  | string s =>
    rw [quote, List.cons_append, List.map_cons, List.map_append, List.cons_append,
      List.append_assoc] at hskip ⊢
    exact value_string hskip (string_quote s rest)
  | @noItems gap hgap =>
    rw [List.cons_append, List.map_cons, List.map_append, List.cons_append,
      List.append_assoc] at hskip ⊢
    exact value_noItems hskip (skipBlanks_gap hgap rfl rest)
  | @items list text lays =>
    rw [List.cons_append, List.map_cons, List.map_append, List.cons_append,
      List.append_assoc] at hskip ⊢
    rw [List.cons_append, List.length_cons, List.length_append, List.length_singleton] at hs
    exact value_items hskip (head?_skipBlanks_items lays _) (items_lays lays (by omega) rest)
  | @noMembers gap hgap =>
    rw [List.cons_append, List.map_cons, List.map_append, List.cons_append,
      List.append_assoc] at hskip ⊢
    exact value_noMembers hskip (skipBlanks_gap hgap rfl rest)
  | @members list text lays =>
    rw [List.cons_append, List.map_cons, List.map_append, List.cons_append,
      List.append_assoc] at hskip ⊢
    rw [List.cons_append, List.length_cons, List.length_append, List.length_singleton] at hs
    exact value_members hskip (head?_skipBlanks_members lays _) (members_lays lays (by omega) rest)

/-- The items of a list are read back from each of their layouts. -/
theorem items_lays {list : List Json} {text : List Char} (h : LaysItems list text) {steps : Nat}
    (hs : text.length + 1 < steps) (rest : Source) :
    items steps (text.map some ++ some ']' :: rest) = some (list, rest) := by
  obtain ⟨steps, rfl⟩ : ∃ n, steps = n + 1 := ⟨steps - 1, by omega⟩
  cases h with
  | last blank lays ends =>
    simp only [List.length_append] at hs
    simp only [List.map_append, List.append_assoc]
    exact items_last
      (value_lays lays (by omega) ((endsNumber_cons (by decide) rest).gap ends) blank)
      (skipBlanks_gap ends rfl rest)
  | cons blank lays ends more =>
    simp only [List.length_append, List.length_cons] at hs
    simp only [List.map_append, List.append_assoc, List.map_cons, List.cons_append]
    exact items_cons (value_lays lays (by omega) ((endsNumber_cons (by decide) _).gap ends) blank)
      (skipBlanks_gap ends rfl _) (items_lays more (by omega) rest)

/-- The members of an object are read back from each of their layouts. -/
theorem members_lays {list : List (Option String × Json)} {text : List Char}
    (h : LaysMembers list text) {steps : Nat}
    (hs : text.length + 1 < steps) (rest : Source) :
    members steps (text.map some ++ some '\x7d' :: rest) = some (list, rest) := by
  obtain ⟨steps, rfl⟩ : ∃ n, steps = n + 1 := ⟨steps - 1, by omega⟩
  cases h with
  | last blank before behind lays ends =>
    simp only [List.length_append, List.length_cons] at hs
    simp only [List.map_append, List.append_assoc, List.map_cons, List.cons_append]
    exact members_last (member_lays blank before
      (value_lays lays (by omega) ((endsNumber_cons (by decide) rest).gap ends) behind))
      (skipBlanks_gap ends rfl rest)
  | cons blank before behind lays ends more =>
    simp only [List.length_append, List.length_cons] at hs
    simp only [List.map_append, List.append_assoc, List.map_cons, List.cons_append]
    exact members_cons (member_lays blank before
      (value_lays lays (by omega) ((endsNumber_cons (by decide) _).gap ends) behind))
      (skipBlanks_gap ends rfl _) (members_lays more (by omega) rest)

end

end Reader

/-- A value is read back from each of its layouts, blanks around it included. -/
theorem read?_lays {value : Json} {front text back : List Char} (blank : Blank front)
    (lays : Lays value text) (ends : Blank back) :
    read? (sourceOfText (front ++ (text ++ back))) = some value := by
  have hends : Reader.EndsNumber (back.map some ++ []) :=
    Reader.EndsNumber.gap Reader.endsNumber_nil ends
  have hback : Reader.skipBlanks (back.map some ++ []) = [] := Reader.skipBlanks_append ends []
  have hlength : (sourceOfText (front ++ (text ++ back))).length =
      front.length + (text.length + back.length) := by
    simp only [sourceOfText, List.length_map, List.length_append]
  have hvalue := Reader.value_lays lays
    (by omega : text.length < 2 * (sourceOfText (front ++ (text ++ back))).length + 2) hends blank
  rw [List.append_nil] at hvalue hback
  rw [read?]
  simp only [sourceOfText, List.map_append] at hvalue ⊢
  rw [hvalue]
  simp only [hback, List.isEmpty_nil, if_true]

/-! ## The two texts -/

/-- No blanks are blanks only. -/
theorem blank_nil : Blank [] :=
  List.forall_mem_nil _

/-- A space is blank. -/
theorem blank_space : Blank [' '] :=
  List.forall_mem_singleton.mpr rfl

/-- A line break with its indentation is blank. -/
theorem blank_newLine (level : Nat) : Blank (newLine level) := by
  refine List.forall_mem_cons.mpr ⟨rfl, fun c hc => ?_⟩
  rw [List.eq_of_mem_replicate hc]
  rfl

/-- Items with a gap in front of each and one behind the last are laid out. -/
theorem laysItems_spread {text : Json → List Char} {texts : List Json → List Char}
    {front back : List Char} (hf : Blank front) (hb : Blank back)
    (last : ∀ item, texts [item] = front ++ text item)
    (cons : ∀ item next rest,
      texts (item :: next :: rest) = front ++ text item ++ ',' :: texts (next :: rest))
    {item : Json} {items : List Json} (h : ∀ other ∈ item :: items, Lays other (text other)) :
    LaysItems (item :: items) (texts (item :: items) ++ back) := by
  induction items generalizing item with
  | nil =>
    have hitem := h item List.mem_cons_self
    simpa [last] using LaysItems.last hf hitem hb
  | cons next items ih =>
    obtain ⟨hitem, hitems⟩ := List.forall_mem_cons.mp h
    simpa [cons] using LaysItems.cons hf hitem blank_nil (ih hitems)

/-- So are members, with a gap behind each colon too. -/
theorem laysMembers_spread {text : Json → List Char}
    {texts : List (Option String × Json) → List Char} {front gap back : List Char}
    (hf : Blank front) (hg : Blank gap) (hb : Blank back)
    (last : ∀ name item,
      texts [(name, item)] = front ++ stringText name ++ ':' :: (gap ++ text item))
    (cons : ∀ name item next rest,
      texts ((name, item) :: next :: rest) =
        front ++ stringText name ++ ':' :: (gap ++ text item) ++ ',' :: texts (next :: rest))
    {member : Option String × Json} {members : List (Option String × Json)}
    (named : ∀ other ∈ member :: members, other.1.isSome = true)
    (h : ∀ other ∈ member :: members, Lays other.2 (text other.2)) :
    LaysMembers (member :: members) (texts (member :: members) ++ back) := by
  induction members generalizing member with
  | nil =>
    obtain ⟨name, item⟩ := member
    obtain ⟨s, rfl⟩ := Option.isSome_iff_exists.mp (named _ List.mem_cons_self)
    have hitem := h _ List.mem_cons_self
    simpa [last, stringText] using LaysMembers.last hf blank_nil hg hitem hb
  | cons next members ih =>
    obtain ⟨name, item⟩ := member
    obtain ⟨hname, hnames⟩ := List.forall_mem_cons.mp named
    obtain ⟨hitem, hitems⟩ := List.forall_mem_cons.mp h
    obtain ⟨s, rfl⟩ := Option.isSome_iff_exists.mp hname
    simpa [cons, stringText] using
      LaysMembers.cons hf blank_nil hg hitem blank_nil (ih hnames hitems)

/-- The compact text of a value is a layout of it. -/
theorem lays_compact {value : Json} (h : Plain value) : Lays value (compact value) := by
  induction h with
  | null => exact .null
  | boolean b => cases b with
    | true => exact .true
    | false => exact .false
  | number wellFormed => exact .number wellFormed
  | string s => exact .string s
  | @array items plain ih =>
    cases items with
    | nil => exact .noItems blank_nil
    | cons item items =>
      have hitems : LaysItems (item :: items) (compactItems (item :: items) ++ []) :=
        laysItems_spread blank_nil blank_nil (fun item => by simp [compactItems])
          (fun item next rest => by simp [compactItems]) ih
      rw [List.append_nil] at hitems
      exact .items hitems
  | @object members named plain ih =>
    cases members with
    | nil => exact .noMembers blank_nil
    | cons member members =>
      have hmembers : LaysMembers (member :: members)
          (compactMembers (member :: members) ++ []) :=
        laysMembers_spread blank_nil blank_nil blank_nil
          (fun name item => by simp [compactMembers])
          (fun name item next rest => by simp [compactMembers]) named ih
      rw [List.append_nil] at hmembers
      exact .members hmembers

/-- The pretty text of a value is a layout of it, at every level. -/
theorem lays_prettyAt {value : Json} (h : Plain value) (level : Nat) :
    Lays value (prettyAt level value) := by
  induction h generalizing level with
  | null => exact .null
  | boolean b => cases b with
    | true => exact .true
    | false => exact .false
  | number wellFormed => exact .number wellFormed
  | string s => exact .string s
  | @array items plain ih =>
    cases items with
    | nil => exact .noItems blank_nil
    | cons item items =>
      have hitems : LaysItems (item :: items)
          (prettyItems (level + 1) (item :: items) ++ newLine level) :=
        laysItems_spread (blank_newLine (level + 1)) (blank_newLine level)
          (fun item => by simp [prettyItems]) (fun item next rest => by simp [prettyItems])
          fun other hm => ih other hm (level + 1)
      simpa [prettyAt] using Lays.items hitems
  | @object members named plain ih =>
    cases members with
    | nil => exact .noMembers blank_nil
    | cons member members =>
      have hmembers : LaysMembers (member :: members)
          (prettyMembers (level + 1) (member :: members) ++ newLine level) :=
        laysMembers_spread (blank_newLine (level + 1)) blank_space (blank_newLine level)
          (fun name item => by simp [prettyMembers])
          (fun name item next rest => by simp [prettyMembers]) named
          fun other hm => ih other hm (level + 1)
      simpa [prettyAt] using Lays.members hmembers

/-- A value is read back from its compact and from its pretty text. -/
theorem read?_texts {value : Json} (h : Plain value) {text : List Char}
    (ht : text = compact value ∨ text = pretty value) :
    read? (sourceOfText text) = some value := by
  have hlays : Lays value text := by
    rcases ht with rfl | rfl
    · exact lays_compact h
    · exact lays_prettyAt h 0
  have hread := read?_lays blank_nil hlays blank_nil
  rwa [List.nil_append, List.append_nil] at hread

end EmbeddedSql.Json
