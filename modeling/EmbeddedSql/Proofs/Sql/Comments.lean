import EmbeddedSql.Proofs.Sql.Binding
import EmbeddedSql.Sql.Reading

/-!
# Comments in templates

The splitter passes over comments, and the binder does not know of them: to the
binder a comment is text like any other, with quotes that open and placeholders
to fill. What a comment says makes no difference as long as the binder finds no
placeholder in it and what it leaves open does not matter behind it.
-/

namespace EmbeddedSql.Sql

namespace Template

/-! ## What the binder copies -/

variable {quote : Option Char} {mode : Script.Mode} {parameters : List Value}

/-- Behind a front a text is scanned with the quote open that is open there. -/
theorem partsFrom_append_of_head (quote : Option Char) (front : List Char) {back : List Char}
    (hback : ∀ c ∈ back.head?, c.isDigit = false) :
    partsFrom (.ofQuote quote) (front ++ back) =
      partsFrom (.ofQuote quote) front ++ partsFrom (.ofQuote (quoteFrom quote front)) back := by
  cases back with
  | nil => rw [partsFrom_nil, List.append_nil, List.append_nil]
  | cons c rest => exact partsFrom_append (hback c rfl) rest quote front

/-- A text without placeholders is copied, and what is behind it is bound with the
quote open that is open there. -/
theorem bind_markless {front text back : List Char} (h : Markless (quoteFrom none front) text)
    (htext : ∀ c ∈ text.head?, c.isDigit = false) (hback : ∀ c ∈ back.head?, c.isDigit = false) :
    bind (front ++ (text ++ back)) parameters =
      (bind front parameters).bind fun before =>
        (fill parameters (partsFrom (.ofQuote (quoteFrom none (front ++ text))) back)).map
          fun behind => before ++ (text ++ behind) := by
  have hhead : ∀ c ∈ (text ++ back).head?, c.isDigit = false := by
    cases text with
    | nil => exact hback
    | cons c rest => exact htext
  have hquote : quoteFrom (quoteFrom none front) text = quoteFrom none (front ++ text) :=
    List.foldl_append.symm
  have hparts := partsFrom_append_of_head none front hhead
  rw [partsFrom_append_of_head _ text hback, h.partsFrom_eq, hquote] at hparts
  change fill parameters (partsFrom (.ofQuote none) (front ++ (text ++ back))) = _
  rw [hparts, fill_append, fill_append, fill_map_char]
  change (bind front parameters).bind _ = _
  congr 1
  funext before
  cases fill parameters (partsFrom (.ofQuote (quoteFrom none (front ++ text))) back) <;> rfl

/-! ## What is written for a front -/

/-- Wherever the binder sees a placeholder the splitter is outside quotes and comments,
and no dash stands in front of it. -/
def Exposed (quote : Option Char) (mode : Script.Mode) (text : List Char) : Prop :=
  ∀ front digits back, Occurs text front digits back → quoteFrom quote front = none →
    Script.modeAfter mode front = .plain ∧ front.getLast? ≠ some '-'

/-- What is behind the first character is exposed if the whole is. -/
theorem Exposed.of_cons {c : Char} {rest : List Char} (h : Exposed quote mode (c :: rest)) :
    Exposed (quoteAfter quote c) (mode.after c rest.head?) rest := by
  intro front digits back hoccurs hquote
  obtain ⟨hmode, hlast⟩ := h (c :: front) digits back (hoccurs.cons c) hquote
  rw [modeAfter_cons_of_occurs hoccurs] at hmode
  refine ⟨hmode, fun hdash => hlast ?_⟩
  rw [List.getLast?_cons, hdash]
  rfl

/-- What is behind a placeholder is exposed if the text from the placeholder on is. -/
theorem Exposed.of_placeholder {digits back : List Char}
    (hdigits : ∀ c ∈ digits, c.isDigit = true)
    (h : Exposed none .plain ('$' :: (digits ++ back))) : Exposed none .plain back := by
  intro front digits' back' hoccurs hquote
  have hopen : quoteFrom none ('$' :: (digits ++ front)) = none := by
    rw [quoteFrom_digits hdigits, hquote]
  have hwhole := h _ _ _ ((hoccurs.append digits).cons '$') hopen
  rw [← List.cons_append, modeAfter_of_isInert (isInert_placeholder hdigits)] at hwhole
  refine ⟨hwhole.1, fun hdash => hwhole.2 ?_⟩
  rw [List.getLast?_append, hdash]
  rfl

/-- A literal can take the place of a placeholder. -/
theorem swappable_of_write {index : Nat} {literal : List Char}
    (h : write parameters index = .ok literal) : Swappable literal := by
  obtain ⟨v, _, hliteral⟩ := write_eq_ok_iff.mp h
  exact swappable_of_spells (spells_of_literal hliteral)

/-- Something is written for whatever there is. -/
theorem eq_nil_of_fill (quote : Option Char) (text : List Char)
    (h : fill parameters (partsFrom (.ofQuote quote) text) = .ok []) : text = [] := by
  induction quote, text using scanning with
  | nil quote => rfl
  | char quote c rest hmark ih =>
    rw [partsFrom_char hmark, fill_char] at h
    obtain ⟨text, _, hbound⟩ := Result.map_eq_ok_iff.mp h
    cases hbound
  | placeholder digits back hne hdigits hback ih =>
    simp only [Mode.ofQuote] at h
    rw [partsFrom_placeholder hne hdigits hback] at h
    obtain ⟨literal, text, hwrite, _, hbound⟩ := fill_placeholder_eq_ok_iff.mp h
    exact absurd (List.append_eq_nil_iff.mp hbound).1 (swappable_of_write hwrite).ne_nil

/-- What is written for a text begins as the text does, if that is not with a
placeholder. -/
theorem head?_of_fill {text bound : List Char}
    (hmark : ∀ digits back, Occurs text [] digits back → quote ≠ none)
    (h : fill parameters (partsFrom (.ofQuote quote) text) = .ok bound) :
    bound.head? = text.head? := by
  cases text with
  | nil =>
    rw [partsFrom_nil] at h
    cases h
    rfl
  | cons c rest =>
    have hchar : quote = none → isMark c rest.head? = false := by
      intro hquote
      by_contra hbegins
      rw [Bool.not_eq_false] at hbegins
      obtain ⟨rfl, digits, back, rfl, hne, hdigits, hends⟩ := exists_digits_of_isMark hbegins
      exact hmark digits back ⟨rfl, hne, hdigits, hends⟩ hquote
    rw [partsFrom_char hchar, fill_char] at h
    obtain ⟨more, _, rfl⟩ := Result.map_eq_ok_iff.mp h
    rfl

/-- What is written for a text ends with a dash only if the text does. -/
theorem getLast?_of_fill (quote : Option Char) (text : List Char) :
    ∀ {bound : List Char}, fill parameters (partsFrom (.ofQuote quote) text) = .ok bound →
      bound.getLast? = some '-' → text.getLast? = some '-' := by
  induction quote, text using scanning with
  | nil quote =>
    intro bound h hlast
    rw [partsFrom_nil] at h
    cases h
    cases hlast
  | char quote c rest hmark ih =>
    intro bound h hlast
    rw [partsFrom_char hmark, fill_char] at h
    obtain ⟨text, htext, rfl⟩ := Result.map_eq_ok_iff.mp h
    -- The last character is that of what follows, or the literal ends the text, and no literal
    -- ends with a dash.
    cases hend : text.getLast? with
    | none =>
      obtain rfl : text = [] := List.getLast?_eq_none_iff.mp hend
      rw [eq_nil_of_fill _ rest htext]
      exact hlast
    | some d =>
      rw [List.getLast?_cons, hend] at hlast
      rw [List.getLast?_cons, ih htext (hend.trans hlast)]
      rfl
  | placeholder digits back hne hdigits hback ih =>
    intro bound h hlast
    simp only [Mode.ofQuote] at h ih
    rw [partsFrom_placeholder hne hdigits hback] at h
    obtain ⟨literal, text, hwrite, htext, rfl⟩ := fill_placeholder_eq_ok_iff.mp h
    rw [List.getLast?_append] at hlast
    cases hend : text.getLast? with
    | none =>
      rw [hend] at hlast
      exact absurd hlast (swappable_of_write hwrite).getLast_ne
    | some d =>
      rw [hend] at hlast
      rw [← List.cons_append, List.getLast?_append, ih htext (hend.trans hlast)]
      rfl

/-- Values in the places of exposed placeholders do not change where the splitter
stands behind them. -/
theorem modeAfter_of_fill (quote : Option Char) (text : List Char) :
    ∀ {mode : Script.Mode} {bound : List Char}, Exposed quote mode text →
      fill parameters (partsFrom (.ofQuote quote) text) = .ok bound →
      Script.modeAfter mode bound = Script.modeAfter mode text := by
  induction quote, text using scanning with
  | nil quote =>
    intro mode bound _ h
    rw [partsFrom_nil] at h
    cases h
    rfl
  | char quote c rest hmark ih =>
    intro mode bound hexposed h
    rw [partsFrom_char hmark, fill_char] at h
    obtain ⟨text, htext, rfl⟩ := Result.map_eq_ok_iff.mp h
    -- A dash looks at the next character, and no value is written behind a dash.
    have hafter : mode.after c text.head? = mode.after c rest.head? := by
      by_cases hc : c = '-'
      · have hnext : ∀ digits back, Occurs rest [] digits back → quoteAfter quote c ≠ none := by
          intro digits back hoccurs hquote
          exact (hexposed [c] digits back (hoccurs.cons c) hquote).2 (congrArg some hc)
        rw [head?_of_fill hnext htext]
      · exact Script.after_of_ne hc mode _ _
    rw [Script.modeAfter_cons, Script.modeAfter_cons, hafter]
    exact ih hexposed.of_cons htext
  | placeholder digits back hne hdigits hback ih =>
    intro mode bound hexposed h
    obtain rfl : mode = .plain := (hexposed [] digits back ⟨rfl, hne, hdigits, hback⟩ rfl).1
    simp only [Mode.ofQuote] at h ih
    rw [partsFrom_placeholder hne hdigits hback] at h
    obtain ⟨literal, text, hwrite, htext, rfl⟩ := fill_placeholder_eq_ok_iff.mp h
    have hliteral := swappable_of_write hwrite
    calc Script.modeAfter .plain (literal ++ text)
        = Script.modeAfter .plain text := by
          rw [Script.modeAfter_append (.inl hliteral.getLast_ne), hliteral.mode]
      _ = Script.modeAfter .plain back := ih (hexposed.of_placeholder hdigits) htext
      _ = Script.modeAfter .plain ('$' :: (digits ++ back)) :=
          (modeAfter_of_isInert (isInert_placeholder hdigits) back).symm

end Template

/-! ## What the splitter passes over -/

/-- The statements of a script do not depend on what its comments say. -/
theorem Script.statements_comment {front first second behind : List Char}
    (hmode : modeAfter .plain front = .plain) (hlast : front.getLast? ≠ some '-')
    (hfirst : '\n' ∉ first) (hsecond : '\n' ∉ second) :
    statements (front ++ ('-' :: '-' :: first ++ behind)) =
      statements (front ++ ('-' :: '-' :: second ++ behind)) := by
  have hpieces {comment : List Char} (hline : '\n' ∉ comment) :
      piecesFrom .plain (front ++ ('-' :: '-' :: comment ++ behind)) =
        piecesFrom .plain front ++ .gap :: piecesFrom .comment behind := by
    rw [piecesFrom_append (.inl hlast), hmode, ← piecesFrom_comment hline]
    rfl
  rw [statements, hpieces hfirst, statements, hpieces hsecond]

namespace Template

/-- What a comment says makes no difference to what a template is read as, if the
binder finds no placeholder in it, if what is behind it is bound alike either way, and
if the placeholders in front of it stand in statements. -/
theorem read_comment (front back first second : List Char) (parameters : List Value)
    (hmode : Script.modeAfter .plain front = .plain) (hlast : front.getLast? ≠ some '-')
    (hback : ∀ c ∈ back.head?, c = '\n') (hfirst : '\n' ∉ first) (hsecond : '\n' ∉ second)
    (hexposed : Exposed none .plain front)
    (hmarkless : Markless (quoteFrom none front) ('-' :: '-' :: first))
    (hmarkless' : Markless (quoteFrom none front) ('-' :: '-' :: second))
    (hbehind : quoteFrom none (front ++ '-' :: '-' :: first) =
        quoteFrom none (front ++ '-' :: '-' :: second) ∨
      Markless (quoteFrom none (front ++ '-' :: '-' :: first)) back ∧
        Markless (quoteFrom none (front ++ '-' :: '-' :: second)) back) :
    (bindTemplate (front ++ ('-' :: '-' :: first ++ back)) parameters >>= parseScript) =
      (bindTemplate (front ++ ('-' :: '-' :: second ++ back)) parameters >>= parseScript) := by
  have hdash (comment : List Char) : ∀ c ∈ ('-' :: '-' :: comment).head?, c.isDigit = false := by
    intro c hc
    obtain rfl := Option.some.inj hc
    decide
  have hdigit : ∀ c ∈ back.head?, c.isDigit = false := by
    intro c hc
    rw [hback c hc]
    decide
  have hrest : partsFrom (.ofQuote (quoteFrom none (front ++ '-' :: '-' :: first))) back =
      partsFrom (.ofQuote (quoteFrom none (front ++ '-' :: '-' :: second))) back := by
    rcases hbehind with hquote | ⟨hcopied, hcopied'⟩
    · rw [hquote]
    · rw [hcopied.partsFrom_eq, hcopied'.partsFrom_eq]
  rw [bindTemplate, bindTemplate, bind_markless hmarkless (hdash first) hdigit,
    bind_markless hmarkless' (hdash second) hdigit, hrest]
  cases hbefore : bind front parameters with
  | error error => rfl
  | ok before =>
    cases fill parameters (partsFrom _ back) with
    | error error => rfl
    | ok behind =>
      change parseScript _ = parseScript _
      have hmode' : Script.modeAfter .plain before = .plain :=
        (modeAfter_of_fill none front hexposed hbefore).trans hmode
      have hlast' : before.getLast? ≠ some '-' := fun he =>
        hlast (getLast?_of_fill none front hbefore he)
      rw [parseScript, Script.statements_comment hmode' hlast' hfirst hsecond]
      rfl

/-- A comment with a semicolon and a dollar sign in quotes, and placeholders on either
side of it. -/
theorem read_comment_of_quotes :
    (bindTemplate "DELETE FROM t WHERE a = $1 -- '$5; old'\nAND b = $2".toList
        [.text "--", .null] >>= parseScript) =
      (bindTemplate "DELETE FROM t WHERE a = $1 --\nAND b = $2".toList
        [.text "--", .null] >>= parseScript) := by
  have hexposed : Exposed none .plain "DELETE FROM t WHERE a = $1 ".toList := by
    intro front digits back h _
    obtain ⟨rfl, _⟩ := @Occurs.eq_of_not_mem "DELETE FROM t WHERE a = ".toList ['1', ' '] front
      digits back (by decide) (by decide) h
    decide
  have hquoted : Markless none "-- '$5; old'".toList := by
    intro front digit back he _
    obtain ⟨rfl, -, -⟩ : front = "-- '".toList ∧ digit = '5' ∧ back = "; old'".toList := by
      simpa [List.cons_eq_append_iff] using he
    decide
  have hempty : Markless none "--".toList := by
    intro front digit back he _
    simp [List.cons_eq_append_iff] at he
  exact read_comment "DELETE FROM t WHERE a = $1 ".toList "\nAND b = $2".toList
    " '$5; old'".toList [] [.text "--", .null] (by decide) (by decide)
    (fun c hc => (Option.some.inj hc).symm) (by decide) (by decide) hexposed hquoted hempty
    (.inl (by decide))

/-- A comment that names a parameter which is not there is enough for a template not to
be bound. -/
theorem read_ne_of_comment :
    ¬ ∀ (front back first second : List Char) (parameters : List Value),
        Script.modeAfter .plain front = .plain → front.getLast? ≠ some '-' →
        (∀ c ∈ back.head?, c = '\n') → '\n' ∉ first → '\n' ∉ second →
        (bindTemplate (front ++ ('-' :: '-' :: first ++ back)) parameters >>= parseScript) =
          (bindTemplate (front ++ ('-' :: '-' :: second ++ back)) parameters >>= parseScript) := by
  intro hsame
  have hread : (bindTemplate ("SELECT * FROM t ".toList ++ ('-' :: '-' :: " x".toList ++ [])) [] >>=
      parseScript) = .ok [.select ⟨"t", .all, []⟩] := rfl
  have hunbound : (bindTemplate ("SELECT * FROM t ".toList ++ ('-' :: '-' :: " $5".toList ++ [])) []
      >>= parseScript) = .error (.binding (.missing 5)) := rfl
  have hequal := hsame "SELECT * FROM t ".toList [] " x".toList " $5".toList [] (by decide)
    (by decide) (fun c hc => nomatch hc) (by decide) (by decide)
  rw [hread, hunbound] at hequal
  cases hequal

end Template

end EmbeddedSql.Sql
