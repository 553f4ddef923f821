import EmbeddedSql.Proofs.Result
import EmbeddedSql.Proofs.Sql.Lockstep
import EmbeddedSql.Sql.Template
import Mathlib.Data.Nat.Init

/-!
# Placeholders and what is written for them

Where the placeholders of a template stand is said by cutting the template in
three: what is in front, the dollar sign with its digits, and what is behind.
The binder's scan fills just these places. Binding fails if and only if a
placeholder has no parameter or one that cannot be written, and otherwise the
bound text is the template with its placeholders exchanged for literals.
-/

namespace EmbeddedSql.Sql.Template

/-- The quote that is open behind a text, if one is. -/
def quoteFrom (quote : Option Char) (front : List Char) : Option Char :=
  front.foldl quoteAfter quote

/-- A dollar sign with digits, all that stand there, and what is around them. -/
structure Occurs (template front digits back : List Char) : Prop where
  /-- The template in three parts. -/
  whole : template = front ++ '$' :: (digits ++ back)
  /-- There are digits. -/
  some_digit : digits ≠ []
  /-- They are digits. -/
  digit : ∀ c ∈ digits, c.isDigit = true
  /-- No digit follows. -/
  ends : ∀ c ∈ back.head?, c.isDigit = false

/-- The parameter with a number. -/
def parameter? (parameters : List Value) (index : Nat) : Option Value :=
  match index with
  | 0 => none
  | n + 1 => parameters[n]?

/-- The scan's mode when a quote is open or not. -/
def Mode.ofQuote : Option Char → Mode
  | none => .plain
  | some quote => .quoted quote

/-- Where a placeholder begins there are all its digits. -/
theorem exists_digits_of_isMark {c : Char} {rest : List Char} (h : isMark c rest.head? = true) :
    c = '$' ∧ ∃ digits back, rest = digits ++ back ∧ digits ≠ [] ∧
      (∀ d ∈ digits, d.isDigit = true) ∧ ∀ d ∈ back.head?, d.isDigit = false := by
  simp only [isMark, Bool.and_eq_true, beq_iff_eq] at h
  refine ⟨h.1, rest.takeWhile Char.isDigit, rest.dropWhile Char.isDigit,
    List.takeWhile_append_dropWhile.symm, ?_, List.all_eq_true.mp List.all_takeWhile, ?_⟩
  · cases rest with
    | nil => exact absurd h.2 (by simp)
    | cons d more =>
      have hd : d.isDigit = true := h.2
      simp [hd]
  · intro d hd
    have hnot := List.head?_dropWhile_not Char.isDigit rest
    rw [hd] at hnot
    simpa using hnot

/-- A text is followed as the binder's scan follows it, a placeholder at a time
and otherwise a character at a time. -/
theorem scanning {motive : Option Char → List Char → Prop}
    (nil : ∀ quote, motive quote [])
    (char : ∀ quote c rest, (quote = none → isMark c rest.head? = false) →
      motive (quoteAfter quote c) rest → motive quote (c :: rest))
    (placeholder : ∀ digits back, digits ≠ [] → (∀ c ∈ digits, c.isDigit = true) →
      (∀ c ∈ back.head?, c.isDigit = false) → motive none back →
      motive none ('$' :: (digits ++ back)))
    (quote : Option Char) (text : List Char) : motive quote text := by
  induction hn : text.length using Nat.strong_induction_on generalizing quote text with
  | _ n ih =>
    cases text with
    | nil => exact nil quote
    | cons c rest =>
      by_cases hmark : quote = none ∧ isMark c rest.head? = true
      · obtain ⟨rfl, hmark⟩ := hmark
        obtain ⟨rfl, digits, back, rfl, hne, hdigits, hends⟩ := exists_digits_of_isMark hmark
        have hlength : back.length < n := by
          rw [← hn, List.length_cons, List.length_append]
          omega
        exact placeholder digits back hne hdigits hends (ih _ hlength none back rfl)
      · refine char quote c rest (fun hq => ?_) (ih rest.length (by rw [← hn]; simp) _ rest rfl)
        exact Bool.eq_false_iff.mpr fun hm => hmark ⟨hq, hm⟩

/-! ## Parts -/

/-- At the end of a template, inside quotes or outside, no parts are left. -/
theorem partsFrom_nil (quote : Option Char) : partsFrom (.ofQuote quote) [] = [] := by
  cases quote <;> rfl

/-- A character that no placeholder begins with is a part of its own. -/
theorem partsFrom_char {quote : Option Char} {c : Char} {rest : List Char}
    (h : quote = none → isMark c rest.head? = false) :
    partsFrom (.ofQuote quote) (c :: rest) =
      .char c :: partsFrom (.ofQuote (quoteAfter quote c)) rest := by
  cases quote with
  | none =>
    have hmark : ¬(c = '$' ∧ rest.head?.any Char.isDigit) := by
      simpa [isMark] using h rfl
    by_cases hq : Script.isQuote c = true
    · simp only [Mode.ofQuote, quoteAfter, partsFrom, if_neg hmark, hq, if_true]
    · simp only [Mode.ofQuote, quoteAfter, partsFrom, if_neg hmark, if_neg hq]
  | some opened =>
    by_cases hc : c = opened
    · simp only [Mode.ofQuote, quoteAfter, partsFrom, if_pos hc]
    · simp only [Mode.ofQuote, quoteAfter, partsFrom, if_neg hc]

/-- Digits behind a dollar sign go on the number of the placeholder, up to where no digit
follows. -/
theorem partsFrom_digits {digits back : List Char} (hne : digits ≠ [])
    (hdigits : ∀ c ∈ digits, c.isDigit = true) (hback : ∀ c ∈ back.head?, c.isDigit = false)
    (soFar : Nat) :
    partsFrom (.index soFar) (digits ++ back) =
      placeholderOf (digits.foldl (fun soFar c => soFar * 10 + Decimal.digitValue c) soFar) ::
        partsFrom .plain back := by
  induction digits generalizing soFar with
  | nil => exact absurd rfl hne
  | cons c rest ih =>
    cases rest with
    | nil =>
      have hnext : ¬(back.head?.any Char.isDigit = true) := by
        cases hb : back.head? with
        | none => simp
        | some d => simp [hback d hb]
      simp only [List.cons_append, List.nil_append, partsFrom, if_neg hnext, List.foldl_cons,
        List.foldl_nil]
    | cons d more =>
      have hd : d.isDigit = true := hdigits d (by simp)
      have hnext : ((d :: more ++ back).head?.any Char.isDigit) = true := hd
      rw [List.cons_append, partsFrom]
      simp only [hnext, if_true]
      rw [ih (List.cons_ne_nil d more) fun c hc => hdigits c (List.mem_cons_of_mem _ hc)]
      rfl

/-- Outside quotes a dollar sign and all digits behind it are one placeholder. -/
theorem partsFrom_placeholder {digits back : List Char} (hne : digits ≠ [])
    (hdigits : ∀ c ∈ digits, c.isDigit = true) (hback : ∀ c ∈ back.head?, c.isDigit = false) :
    partsFrom .plain ('$' :: (digits ++ back)) =
      .placeholder (indexOf digits) :: partsFrom .plain back := by
  obtain ⟨c, rest, rfl⟩ := List.exists_cons_of_ne_nil hne
  have hc : c.isDigit = true := hdigits c List.mem_cons_self
  have hnext : ((c :: rest ++ back).head?.any Char.isDigit) = true := hc
  rw [partsFrom]
  simp only [hnext, and_self, if_true]
  rw [partsFrom_digits hne hdigits hback]
  rfl

/-! ## Occurrences -/

/-- A placeholder opens no quote. -/
theorem quoteFrom_digits {digits : List Char} (h : ∀ c ∈ digits, c.isDigit = true)
    (back : List Char) : quoteFrom none ('$' :: (digits ++ back)) = quoteFrom none back := by
  have hdigits : digits.foldl quoteAfter none = none := by
    induction digits with
    | nil => rfl
    | cons c rest ih =>
      have hc := joins_of_isWordPart (isWordPart_of_isDigit (h c List.mem_cons_self))
      have hnone : quoteAfter none c = none := by simp [quoteAfter, hc.2]
      rw [List.foldl_cons, hnone]
      exact ih fun d hd => h d (List.mem_cons_of_mem c hd)
  have hdollar : quoteAfter none '$' = none := by decide
  rw [quoteFrom, List.foldl_cons, List.foldl_append, hdollar, hdigits]
  rfl

/-- What occurs in a text occurs behind one more character. -/
theorem Occurs.cons {text front digits back : List Char} (h : Occurs text front digits back)
    (c : Char) : Occurs (c :: text) (c :: front) digits back :=
  { h with whole := congrArg (c :: ·) h.whole }

/-- What occurs in a text occurs behind anything else. -/
theorem Occurs.append {text front digits back : List Char} (h : Occurs text front digits back)
    (before : List Char) : Occurs (before ++ text) (before ++ front) digits back :=
  { h with whole := by rw [h.whole, List.append_assoc] }

/-- A placeholder at the front of a text begins there. -/
theorem Occurs.isMark {c : Char} {text digits back : List Char}
    (h : Occurs (c :: text) [] digits back) : isMark c text.head? = true := by
  obtain ⟨rfl, rfl⟩ := List.cons.inj h.whole
  obtain ⟨d, rest, rfl⟩ := List.exists_cons_of_ne_nil h.some_digit
  have hd : d.isDigit = true := h.digit d List.mem_cons_self
  simp [Sql.isMark, hd]

/-- A placeholder in a text that begins with another character is in the rest. -/
theorem Occurs.of_cons {c : Char} {text front digits back : List Char}
    (h : Occurs (c :: text) front digits back) (hc : front ≠ []) :
    ∃ front', front = c :: front' ∧ Occurs text front' digits back := by
  obtain ⟨d, front', rfl⟩ := List.exists_cons_of_ne_nil hc
  obtain ⟨rfl, hwhole⟩ := List.cons.inj h.whole
  exact ⟨front', rfl, { h with whole := hwhole }⟩

/-- The digits are the ones up to the first other character. -/
theorem digits_eq {digits digits' back back' : List Char}
    (hdigits : ∀ c ∈ digits, c.isDigit = true) (hback : ∀ c ∈ back.head?, c.isDigit = false)
    (hdigits' : ∀ c ∈ digits', c.isDigit = true) (hback' : ∀ c ∈ back'.head?, c.isDigit = false)
    (h : digits ++ back = digits' ++ back') : digits = digits' ∧ back = back' := by
  have hsame : digits = digits' := by
    rw [← takeWhile_append_of_head hdigits hback, h, takeWhile_append_of_head hdigits' hback']
  rw [hsame] at h
  exact ⟨hsame, List.append_cancel_left h⟩

/-- Behind a placeholder's dollar sign the next placeholder is behind its digits. -/
theorem Occurs.of_placeholder {digits back front digits' back' : List Char}
    (hdigits : ∀ c ∈ digits, c.isDigit = true)
    (h : Occurs ('$' :: (digits ++ back)) front digits' back') (hfront : front ≠ []) :
    ∃ front', front = '$' :: (digits ++ front') ∧ Occurs back front' digits' back' := by
  obtain ⟨behind, rfl, hbehind⟩ := h.of_cons hfront
  rcases List.append_eq_append_iff.mp hbehind.whole with ⟨more, hmore, hback⟩ | ⟨more, hmore, hback⟩
  · exact ⟨more, by rw [hmore], { hbehind with whole := hback }⟩
  · cases more with
    | nil =>
      rw [List.append_nil] at hmore
      exact ⟨[], by rw [hmore, List.append_nil], { hbehind with whole := hback.symm }⟩
    | cons c more =>
      -- The dollar sign would be among the digits.
      obtain ⟨rfl, _⟩ := List.cons.inj hback
      have hdollar := hdigits '$' (by rw [hmore]; simp)
      exact absurd hdollar (by decide)

/-- If there is one dollar sign, that is where the placeholder is. -/
theorem Occurs.eq_of_not_mem {before behind front digits back : List Char}
    (hbefore : '$' ∉ before) (hbehind : '$' ∉ behind)
    (h : Occurs (before ++ '$' :: behind) front digits back) :
    front = before ∧ digits ++ back = behind := by
  induction before generalizing front with
  | nil =>
    by_cases hfront : front = []
    · subst hfront
      exact ⟨rfl, (List.cons.inj h.whole).2.symm⟩
    · obtain ⟨front', rfl, hrest⟩ := h.of_cons hfront
      exact absurd (by rw [hrest.whole]; simp) hbehind
  | cons c rest ih =>
    have hc : c ≠ '$' := fun he => hbefore (he ▸ List.mem_cons_self)
    have hfront : front ≠ [] := by
      rintro rfl
      exact hc (List.cons.inj h.whole).1
    obtain ⟨front', rfl, hrest⟩ := h.of_cons hfront
    obtain ⟨rfl, hsame⟩ := ih (fun hm => hbefore (List.mem_cons_of_mem c hm)) hrest
    exact ⟨rfl, hsame⟩

/-! ## When binding fails -/

/-- A number of a placeholder that nothing can be written for: there is no
parameter with it, or that is a number that is not finite or a text with both
quotes in it. -/
def Unfit (parameters : List Value) (index : Nat) : Prop :=
  index = 0 ∨ parameters.length < index ∨
    (∃ n, parameter? parameters index = some (.number n) ∧ n.isFinite = false) ∨
    ∃ s, parameter? parameters index = some (.text s) ∧ '\'' ∈ s.toList ∧ '"' ∈ s.toList

/-- No literal can be written exactly for the numbers that are not finite and the texts that
hold both quotes. -/
theorem exists_literal_error_iff {v : Value} :
    (∃ reason, literal v = .error reason) ↔
      (∃ n, v = .number n ∧ n.isFinite = false) ∨
        ∃ s, v = .text s ∧ '\'' ∈ s.toList ∧ '"' ∈ s.toList := by
  cases v with
  | number n =>
    by_cases hn : n.isFinite = true
    · simp [literal, hn]
    · simp [literal, hn]
  | text s =>
    simp only [literal, quote?]
    by_cases hdouble : '"' ∈ s.toList
    · by_cases hsingle : '\'' ∈ s.toList
      · simp [hdouble, hsingle]
      · simp [hdouble, hsingle]
    · simp [hdouble]
  | boolean b => cases b <;> simp [literal]
  | null => simp [literal]

/-- What is written for a placeholder is the literal of its parameter. -/
theorem write_eq_ok_iff {parameters : List Value} {index : Nat} {text : List Char} :
    write parameters index = .ok text ↔
      ∃ v, parameter? parameters index = some v ∧ literal v = .ok text := by
  cases index with
  | zero => simp [write, parameter?]
  | succ n =>
    simp only [write, parameter?]
    cases parameters[n]? with
    | none => simp
    | some v => cases hv : literal v <;> simp [hv]

/-- Writing for a placeholder fails exactly if its number is unfit. -/
theorem exists_write_error_iff {parameters : List Value} {index : Nat} :
    (∃ error, write parameters index = .error error) ↔ Unfit parameters index := by
  cases index with
  | zero => simp [write, Unfit]
  | succ n =>
    simp only [write, Unfit, parameter?]
    cases hv : parameters[n]? with
    | none =>
      have hlength : parameters.length < n + 1 := by
        have hle := List.getElem?_eq_none_iff.mp hv
        omega
      simp [hlength]
    | some v =>
      have hlength : ¬ parameters.length < n + 1 := by
        obtain ⟨hlt, _⟩ := List.getElem?_eq_some_iff.mp hv
        omega
      simp only [hlength, Nat.add_one_ne_zero, false_or, Option.some.injEq,
        ← exists_literal_error_iff]
      cases literal v <;> simp

/-- A character is filled in as it is. -/
theorem fill_char (parameters : List Value) (c : Char) (parts : List Part) :
    fill parameters (.char c :: parts) = (fill parameters parts).map (c :: ·) := by
  rw [fill]
  cases fill parameters parts <;> rfl

/-- A placeholder is filled with what is written for its number, if anything can be. -/
theorem fill_placeholder (parameters : List Value) (index : Nat) (parts : List Part) :
    fill parameters (.placeholder index :: parts) =
      match write parameters index with
      | .error error => .error error
      | .ok front => (fill parameters parts).map (front ++ ·) := by
  rw [fill]
  cases write parameters index with
  | error error => rfl
  | ok front => cases fill parameters parts <;> rfl

/-- Filling succeeds from a placeholder on exactly if something can be written for it and
filling succeeds behind it. -/
theorem fill_placeholder_eq_ok_iff {parameters : List Value} {index : Nat} {parts : List Part}
    {bound : List Char} :
    fill parameters (.placeholder index :: parts) = .ok bound ↔
      ∃ front text, write parameters index = .ok front ∧ fill parameters parts = .ok text ∧
        front ++ text = bound := by
  rw [fill_placeholder]
  cases write parameters index with
  | error error => simp
  | ok front => simp [Result.map_eq_ok_iff]

/-- A character does not make filling fail. -/
theorem exists_fill_error_char {parameters : List Value} {c : Char} {parts : List Part} :
    (∃ error, fill parameters (.char c :: parts) = .error error) ↔
      ∃ error, fill parameters parts = .error error := by
  rw [fill_char]
  cases fill parameters parts <;> simp [Except.map]

/-- Filling fails from a placeholder on exactly if its number is unfit or filling fails behind
it. -/
theorem exists_fill_error_placeholder {parameters : List Value} {index : Nat}
    {parts : List Part} :
    (∃ error, fill parameters (.placeholder index :: parts) = .error error) ↔
      Unfit parameters index ∨ ∃ error, fill parameters parts = .error error := by
  rw [← exists_write_error_iff, fill_placeholder]
  cases write parameters index with
  | error error => simp
  | ok text => cases fill parameters parts <;> simp [Except.map]

/-- Binding fails if and only if there is a placeholder outside quotes for which
nothing can be written. -/
theorem exists_fill_error_iff (parameters : List Value) (quote : Option Char) (text : List Char) :
    (∃ error, fill parameters (partsFrom (.ofQuote quote) text) = .error error) ↔
      ∃ front digits back, Occurs text front digits back ∧ quoteFrom quote front = none ∧
        Unfit parameters (indexOf digits) := by
  -- By induction along the search for placeholders, which goes on behind the digits of one.
  induction quote, text using scanning with
  | nil quote =>
    rw [partsFrom_nil]
    constructor
    · rintro ⟨error, herror⟩
      cases herror
    · rintro ⟨front, digits, back, hoccurs, _⟩
      have hwhole := hoccurs.whole
      simp at hwhole
  | char quote c rest hmark ih =>
    rw [partsFrom_char hmark, exists_fill_error_char, ih]
    constructor
    · rintro ⟨front, digits, back, hoccurs, hquote, hunfit⟩
      exact ⟨c :: front, digits, back, hoccurs.cons c, hquote, hunfit⟩
    · rintro ⟨front, digits, back, hoccurs, hquote, hunfit⟩
      have hfront : front ≠ [] := by
        rintro rfl
        have hnone := hmark hquote
        rw [hoccurs.isMark] at hnone
        cases hnone
      obtain ⟨front', rfl, hrest⟩ := hoccurs.of_cons hfront
      exact ⟨front', digits, back, hrest, hquote, hunfit⟩
  | placeholder digits back hne hdigits hback ih =>
    have hparts := partsFrom_placeholder hne hdigits hback
    simp only [Mode.ofQuote] at ih ⊢
    rw [hparts, exists_fill_error_placeholder, ih]
    constructor
    · rintro (hunfit | ⟨front, digits', back', hoccurs, hquote, hunfit⟩)
      · exact ⟨[], digits, back, ⟨rfl, hne, hdigits, hback⟩, rfl, hunfit⟩
      · have hlater := (hoccurs.append digits).cons '$'
        refine ⟨'$' :: (digits ++ front), digits', back', hlater, ?_, hunfit⟩
        rw [quoteFrom_digits hdigits, hquote]
    · rintro ⟨front, digits', back', hoccurs, hquote, hunfit⟩
      -- The placeholder at hand is this one, or it stands behind it.
      by_cases hfront : front = []
      · subst hfront
        have hwhole := (List.cons.inj hoccurs.whole).2
        obtain ⟨rfl, _⟩ := digits_eq hdigits hback hoccurs.digit hoccurs.ends hwhole
        exact .inl hunfit
      · obtain ⟨front', rfl, hbehind⟩ := hoccurs.of_placeholder hdigits hfront
        rw [quoteFrom_digits hdigits] at hquote
        exact .inr ⟨front', digits', back', hbehind, hquote, hunfit⟩

/-! ## Texts without placeholders -/

/-- No dollar sign with a digit behind it stands outside quotes, where the text is
entered with a quote open or not. -/
def Markless (quote : Option Char) (text : List Char) : Prop :=
  ∀ front digit back, text = front ++ '$' :: digit :: back → digit.isDigit = true →
    quoteFrom quote front ≠ none

/-- All of such a text stands for itself. -/
theorem Markless.partsFrom_eq {quote : Option Char} {text : List Char} (h : Markless quote text) :
    partsFrom (.ofQuote quote) text = text.map .char := by
  induction quote, text using scanning with
  | nil quote => exact partsFrom_nil quote
  | char quote c rest hmark ih =>
    have hrest : Markless (quoteAfter quote c) rest := fun front digit back he hd =>
      h (c :: front) digit back (congrArg (c :: ·) he) hd
    rw [partsFrom_char hmark, ih hrest, List.map_cons]
  | placeholder digits back hne hdigits hends ih =>
    obtain ⟨digit, more, rfl⟩ := List.exists_cons_of_ne_nil hne
    exact absurd rfl (h [] digit (more ++ back) rfl (hdigits digit List.mem_cons_self))

/-- Characters that stand for themselves are what is written for them. -/
theorem fill_map_char (parameters : List Value) (text : List Char) :
    fill parameters (text.map .char) = .ok text := by
  induction text with
  | nil => rfl
  | cons c rest ih =>
    rw [List.map_cons, fill_char, ih]
    rfl

end EmbeddedSql.Sql.Template
