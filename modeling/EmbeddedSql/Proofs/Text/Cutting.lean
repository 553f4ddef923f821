import EmbeddedSql.Text.Utf8

/-!
# Cutting texts at bytes

A text can be cut behind a number of its bytes if that does not cut a character in two. What
a search by bytes finds is such a place: the first character of a kind begins behind the bytes
of all characters in front of it.
-/

namespace EmbeddedSql.Text.Utf8

/-- Two texts have as many bytes together as each by itself. -/
theorem size_append (front back : List Char) : size (front ++ back) = size front + size back := by
  induction front with
  | nil => exact (Nat.zero_add _).symm
  | cons c rest ih => rw [List.cons_append, size, size, ih, Nat.add_assoc]

/-- A text has as many bytes as its encoding. -/
theorem length_encode (text : List Char) : (encode text).length = size text := by
  induction text with
  | nil => rfl
  | cons c rest ih =>
    rw [encode, List.flatMap_cons, List.length_append, String.length_utf8EncodeChar, ← encode, ih,
      size]

/-! ## Cuts -/

/-- The first so many bytes of a text and what is behind them; none if the text has fewer, or
if they end inside a character. -/
def cut? : List Char → Nat → Option (List Char × List Char)
  | text, 0 => some ([], text)
  | [], _ + 1 => none
  | c :: rest, count =>
    if c.utf8Size ≤ count then
      (cut? rest (count - c.utf8Size)).map fun (front, back) => (c :: front, back)
    else none

/-- A text can be cut behind the bytes of any of its fronts. -/
theorem cut?_append (front back : List Char) :
    cut? (front ++ back) (size front) = some (front, back) := by
  induction front with
  | nil => rw [List.nil_append, size, cut?]
  | cons c rest ih =>
    have hpos := c.utf8Size_pos
    obtain ⟨count, hcount⟩ : ∃ count, c.utf8Size + size rest = count + 1 :=
      Nat.exists_eq_add_one.mpr (by omega)
    rw [List.cons_append, size, hcount, cut?, ← hcount, if_pos (by omega), Nat.add_sub_cancel_left,
      ih, Option.map_some]
    omega

/-- A text can be cut there and nowhere else. -/
theorem cut?_eq_some_iff {text front back : List Char} {count : Nat} :
    cut? text count = some (front, back) ↔ text = front ++ back ∧ size front = count := by
  refine ⟨fun h => ?_, fun ⟨htext, hsize⟩ => htext ▸ hsize ▸ cut?_append front back⟩
  fun_induction cut? text count generalizing front with
  | case1 text =>
    obtain ⟨rfl, rfl⟩ := Prod.mk.inj (Option.some.inj h)
    exact ⟨rfl, rfl⟩
  | case2 => cases h
  | case3 c rest count _ hle ih =>
    obtain ⟨⟨before, behind⟩, hcut, he⟩ := Option.map_eq_some_iff.mp h
    obtain ⟨rfl, rfl⟩ := Prod.mk.inj he
    obtain ⟨rfl, hsize⟩ := ih hcut
    refine ⟨rfl, ?_⟩
    rw [size, hsize]
    omega
  | case4 => cases h

/-! ## Searches -/

/-- How many bytes stand in front of the first character of a kind; none if there is no such
character. -/
def offset? (p : Char → Bool) : List Char → Option Nat
  | [] => none
  | c :: rest => if p c then some 0 else (offset? p rest).map (c.utf8Size + ·)

variable {p : Char → Bool}

/-- Where no character is of a kind none is found. -/
theorem offset?_of_forall {text : List Char} (h : ∀ c ∈ text, p c = false) :
    offset? p text = none := by
  induction text with
  | nil => rfl
  | cons c rest ih =>
    obtain ⟨hc, hrest⟩ := List.forall_mem_cons.mp h
    rw [offset?, hc, if_neg Bool.false_ne_true, ih hrest, Option.map_none]

/-- The first character of a kind is found behind the bytes of those in front of it. -/
theorem offset?_append_cons {front : List Char} (h : ∀ c ∈ front, p c = false) {c : Char}
    (hc : p c = true) (back : List Char) : offset? p (front ++ c :: back) = some (size front) := by
  induction front with
  | nil => rw [List.nil_append, offset?, if_pos hc, size]
  | cons d rest ih =>
    obtain ⟨hd, hrest⟩ := List.forall_mem_cons.mp h
    rw [List.cons_append, offset?, hd, if_neg Bool.false_ne_true, ih hrest, Option.map_some, size]

/-- A search for the end of a class of characters passes over those of the class, all of them
if there are no others. -/
theorem offset?_not_getD (p : Char → Bool) (text : List Char) :
    (offset? (fun c => !p c) text).getD (size text) = size (text.takeWhile p) := by
  induction text with
  | nil => rfl
  | cons c rest ih =>
    rw [offset?]
    by_cases hc : p c = true
    · rw [hc, Bool.not_true, if_neg Bool.false_ne_true, List.takeWhile_cons_of_pos hc, size, size,
        ← ih]
      cases offset? (fun c => !p c) rest with
      | none => rfl
      | some count => rfl
    · rw [if_pos (by simpa using hc), List.takeWhile_cons_of_neg hc]
      rfl

end EmbeddedSql.Text.Utf8
