import EmbeddedSql.Proofs.Result
import EmbeddedSql.Proofs.Sql.Placeholders

/-!
# What bound templates are read as

If the placeholders of a template stand apart from what is around them, outside
comments as well as quotes, then the statements of the bound template are those
of the template, and their tokens are those of the template with the values of
the parameters in the places of the placeholders.
-/

namespace EmbeddedSql.Sql

/-- An item with the value of its parameter, if it is a placeholder. -/
def Item.fill (parameters : List Value) : Item → Token
  | .token found => found
  | .placeholder index => .literal ((Template.parameter? parameters index).getD .null)

namespace Template

/-! ## Literals -/

/-- A literal is a spelling of its value. -/
theorem spells_of_literal {v : Value} {text : List Char} (h : literal v = .ok text) :
    Spells (.literal v) text := by
  cases v with
  | number n =>
    simp only [literal] at h
    split at h
    next finite =>
      cases h
      exact .number finite
    · cases h
  | text s =>
    simp only [literal, quote?] at h
    -- A text is quoted by a quote that it does not have.
    by_cases hdouble : '"' ∈ s.toList
    · by_cases hsingle : '\'' ∈ s.toList
      · simp [hdouble, hsingle] at h
      · simp only [List.contains_eq_mem, hdouble, hsingle, decide_true, Bool.not_true,
          Bool.false_eq_true, if_false, decide_false, Bool.not_false, if_true] at h
        cases h
        exact .text (by decide) hsingle
    · simp only [List.contains_eq_mem, hdouble, decide_false, Bool.not_false, if_true] at h
      cases h
      exact .text (by decide) hdouble
  | boolean b =>
    cases b with
    | true =>
      cases h
      exact .boolean (by decide)
    | false =>
      cases h
      exact .boolean (by decide)
  | null =>
    cases h
    exact .null (by decide)

/-- A word of inert characters does not end with a dash. -/
theorem getLast?_ne_dash {word : List Char} (h : ∀ c ∈ word, Script.isInert c = true) :
    word.getLast? ≠ some '-' := by
  intro he
  have hdash := h '-' (List.mem_of_getLast? he)
  exact absurd hdash (by decide)

/-- A spelling of a literal can take the place of a placeholder. -/
theorem swappable_of_spells {v : Value} {text : List Char} (h : Spells (.literal v) text) :
    Swappable text := by
  refine { h.standalone with head_ne := ?_, getLast_ne := ?_ }
  · intro he
    obtain ⟨rest, rfl⟩ : ∃ rest, text = '=' :: rest := by
      cases text with
      | nil => cases he
      | cons c rest => exact ⟨rest, by rw [Option.some.inj he]⟩
    -- What begins with an equals sign is read as this operator, and not as a literal.
    have hread : Token.read? '=' (rest ++ []) = some (.literal v, rest.length) :=
      h.read?_literal fun c hc => by cases hc
    rw [List.append_nil] at hread
    have hequal : Token.read? '=' rest = some (.operator .equal, 0) := rfl
    rw [hequal] at hread
    cases hread
  · generalize ht : Token.literal v = token at h
    cases h with
    | @number n finite =>
      obtain ⟨word, hne, hinert, htext | htext⟩ := exists_isInert_text finite
      · rw [htext]
        exact getLast?_ne_dash hinert
      · obtain ⟨c, rest, rfl⟩ := List.exists_cons_of_ne_nil hne
        rw [htext, List.getLast?_cons_cons]
        exact getLast?_ne_dash hinert
    | @text s quote opens free =>
      rw [List.getLast?_concat]
      rintro he
      obtain rfl := Option.some.inj he
      exact absurd opens (by decide)
    | @boolean b word spelled =>
      exact getLast?_ne_dash (isInert_of_isUpper_name spelled (isUpper_of_mem_boolean b))
    | null spelled => exact getLast?_ne_dash (isInert_of_isUpper_name spelled isUpper_of_mem_null)
    | keyword => cases ht
    | columnType => cases ht
    | identifier => cases ht
    | operator => cases ht
    | symbol => cases ht

/-- Digits are inert. -/
theorem isInert_of_isDigit {c : Char} (h : c.isDigit = true) : Script.isInert c = true :=
  isInert_of_isWordPart (isWordPart_of_isDigit h)

/-- A placeholder is made of inert characters. -/
theorem isInert_placeholder {digits : List Char} (hdigits : ∀ c ∈ digits, c.isDigit = true) :
    ∀ c ∈ '$' :: digits, Script.isInert c = true :=
  List.forall_mem_cons.mpr ⟨by decide, fun c hc => isInert_of_isDigit (hdigits c hc)⟩

/-- A placeholder can be exchanged for a word: it stands by itself and completes nothing around
it. -/
theorem swappable_placeholder {digits : List Char} (hdigits : ∀ c ∈ digits, c.isDigit = true) :
    Swappable ('$' :: digits) :=
  { Script.standalone_of_isInert (isInert_placeholder hdigits) (List.cons_ne_nil _ _) with
    head_ne := by simp
    getLast_ne := getLast?_ne_dash (isInert_placeholder hdigits) }

/-- Placeholders and the literals of their parameters. -/
def exchange (parameters : List Value) : Exchange where
  words old new := ∃ digits, digits ≠ [] ∧ (∀ c ∈ digits, c.isDigit = true) ∧
    old = '$' :: digits ∧ write parameters (indexOf digits) = .ok new
  left := by
    rintro old new ⟨digits, _, hdigits, rfl, _⟩
    exact swappable_placeholder hdigits
  right := by
    rintro old new ⟨digits, _, _, _, hwrite⟩
    obtain ⟨v, _, hliteral⟩ := write_eq_ok_iff.mp hwrite
    exact swappable_of_spells (spells_of_literal hliteral)

/-- A placeholder is read as one item, and the literal in its place as the token
that this item is filled with. -/
theorem exchange_read {parameters : List Value} {old new : List Char}
    (h : (exchange parameters).words old new) :
    ∃ c cs d ds item, old = c :: cs ∧ new = d :: ds ∧
      ∀ back : List Char, (∀ x ∈ back.head?, goesOn x = false) →
        Item.read? c (cs ++ back) = some (item, cs.length) ∧
        Token.read? d (ds ++ back) = some (item.fill parameters, ds.length) := by
  obtain ⟨digits, hne, hdigits, rfl, hwrite⟩ := h
  obtain ⟨v, hparameter, hliteral⟩ := write_eq_ok_iff.mp hwrite
  have hspells := spells_of_literal hliteral
  obtain ⟨d, ds, rfl, _⟩ := hspells.standalone.first
  refine ⟨'$', digits, d, ds, .placeholder (indexOf digits), rfl, rfl, fun back hback => ⟨?_, ?_⟩⟩
  · obtain ⟨c, rest, rfl⟩ := List.exists_cons_of_ne_nil hne
    have hc : c.isDigit = true := hdigits c List.mem_cons_self
    have hmark : isMark '$' (c :: rest ++ back).head? = true := by simp [isMark, hc]
    have htake : (c :: rest ++ back).takeWhile Char.isDigit = c :: rest :=
      takeWhile_append_of_head hdigits fun x hx => not_isDigit_of_not_goesOn (hback x hx)
    rw [Item.read?, if_pos hmark, htake]
  · rw [hspells.read?_literal hback, Item.fill, hparameter]
    rfl

/-! ## Where placeholders stand -/

/-- A placeholder apart from what is around it: neither the character in front
of it nor the one behind it can run together with what is written for it. -/
structure Apart (front back : List Char) : Prop where
  /-- What is in front. -/
  before : ∀ c ∈ front.getLast?, joins c = false
  /-- What is behind. -/
  behind : ∀ c ∈ back.head?, goesOn c = false

/-- Whether the last character in front joins. -/
def gluedBehind (glued : Bool) (front : List Char) : Bool :=
  front.foldl (fun _ c => joins c) glued

/-- In a text that is scanned on from some state of the binder, of the splitter
and of the character in front, the binder and the splitter see the same
placeholders, and these are apart from what is around them. -/
def Placed (quote : Option Char) (mode : Script.Mode) (glued : Bool) (text : List Char) : Prop :=
  ∀ front digits back, Occurs text front digits back →
    (quoteFrom quote front = none ↔ Script.modeAfter mode front = .plain) ∧
    (quoteFrom quote front = none → gluedBehind glued front = false ∧
      ∀ c ∈ back.head?, goesOn c = false)

variable {quote : Option Char} {mode : Script.Mode} {glued : Bool}

/-- Nothing joins a word behind a text that is empty or ends with a character that does not
join. -/
theorem gluedBehind_eq_false_iff {front : List Char} :
    gluedBehind false front = false ↔ ∀ c ∈ front.getLast?, joins c = false := by
  rcases List.eq_nil_or_concat front with rfl | ⟨init, c, rfl⟩
  · simp [gluedBehind]
  · simp [gluedBehind]

/-- Behind a placeholder something joins, whatever stands in front of it. -/
theorem gluedBehind_digits {digits : List Char} (hne : digits ≠ [])
    (hdigits : ∀ c ∈ digits, c.isDigit = true) (glued : Bool) (back : List Char) :
    gluedBehind glued ('$' :: (digits ++ back)) = gluedBehind true back := by
  obtain ⟨init, c, rfl⟩ := (List.eq_nil_or_concat digits).resolve_left hne
  have hc : joins c = true :=
    (joins_of_isWordPart (isWordPart_of_isDigit (hdigits c (by simp)))).1
  simp [gluedBehind, hc]

/-- The splitter passes over inert characters. -/
theorem modeAfter_of_isInert {word : List Char} (h : ∀ c ∈ word, Script.isInert c = true)
    (back : List Char) :
    Script.modeAfter .plain (word ++ back) = Script.modeAfter .plain back := by
  induction word with
  | nil => rfl
  | cons c rest ih =>
    rw [List.cons_append, Script.modeAfter_cons,
      (Script.pieceAt_of_isInert (h c List.mem_cons_self) _).2]
    exact ih fun d hd => h d (List.mem_cons_of_mem c hd)

/-- In front of a placeholder the splitter's mode does not depend on it. -/
theorem modeAfter_cons_of_occurs {c : Char} {text front digits back : List Char}
    (h : Occurs text front digits back) :
    Script.modeAfter mode (c :: front) = Script.modeAfter (mode.after c text.head?) front := by
  rw [Script.modeAfter_cons]
  cases front with
  | cons d rest => rw [h.whole]; rfl
  | nil =>
    have hnext : text.head? = some '$' := by rw [h.whole]; rfl
    have hsame : mode.after c none = mode.after c (some '$') := by
      cases mode <;> simp [Script.Mode.after]
    rw [hnext, List.head?_nil, hsame]

/-- What is known of the placeholders of a text is known of those of its rest. -/
theorem Placed.of_cons {c : Char} {rest : List Char} (h : Placed quote mode glued (c :: rest)) :
    Placed (quoteAfter quote c) (mode.after c rest.head?) (joins c) rest := by
  intro front digits back hoccurs
  have hwhole := h (c :: front) digits back (hoccurs.cons c)
  rwa [modeAfter_cons_of_occurs hoccurs] at hwhole

/-- What is behind a placeholder is placed if the text from the placeholder on is. -/
theorem Placed.of_placeholder {digits back : List Char} (hne : digits ≠ [])
    (hdigits : ∀ c ∈ digits, c.isDigit = true)
    (h : Placed none .plain glued ('$' :: (digits ++ back))) : Placed none .plain true back := by
  intro front digits' back' hoccurs
  have hwhole := h _ _ _ ((hoccurs.append digits).cons '$')
  rwa [quoteFrom_digits hdigits, gluedBehind_digits hne hdigits, ← List.cons_append,
    modeAfter_of_isInert (isInert_placeholder hdigits)] at hwhole

/-- The bound text is the template with its placeholders exchanged for literals. -/
theorem swap_of_fill {parameters : List Value} (quote : Option Char) (text : List Char) :
    ∀ {mode : Script.Mode} {glued : Bool} {bound : List Char}, Placed quote mode glued text →
      fill parameters (partsFrom (.ofQuote quote) text) = .ok bound →
      ScriptSwap (exchange parameters) mode glued text bound := by
  induction quote, text using scanning with
  | nil quote =>
    intro mode glued bound _ h
    rw [partsFrom_nil] at h
    cases h
    exact .nil
  | char quote c rest hmark ih =>
    intro mode glued bound hplaced h
    rw [partsFrom_char hmark, fill_char] at h
    obtain ⟨text, htext, rfl⟩ := Result.map_eq_ok_iff.mp h
    refine .char (fun hmode => ?_) (ih hplaced.of_cons htext)
    -- The splitter sees a placeholder here only where the binder does.
    by_contra hbegins
    rw [Bool.not_eq_false] at hbegins
    obtain ⟨rfl, digits, back, rfl, hne, hdigits, hends⟩ := exists_digits_of_isMark hbegins
    have hquote := ((hplaced [] digits back ⟨rfl, hne, hdigits, hends⟩).1).mpr hmode
    rw [hmark hquote] at hbegins
    cases hbegins
  | placeholder digits back hne hdigits hback ih =>
    intro mode glued bound hplaced h
    obtain ⟨hmode, hapart⟩ := hplaced [] digits back ⟨rfl, hne, hdigits, hback⟩
    obtain rfl : mode = .plain := hmode.mp rfl
    obtain ⟨rfl, hnext⟩ : glued = false ∧ ∀ c ∈ back.head?, goesOn c = false := hapart rfl
    have hparts := partsFrom_placeholder hne hdigits hback
    simp only [Mode.ofQuote] at h ih
    rw [hparts] at h
    obtain ⟨literal, text, hwrite, htext, rfl⟩ := fill_placeholder_eq_ok_iff.mp h
    have hwords : (exchange parameters).words ('$' :: digits) literal :=
      ⟨digits, hne, hdigits, rfl, hwrite⟩
    exact ScriptSwap.word hwords hnext (ih (hplaced.of_placeholder hne hdigits) htext)

/-! ## What is read -/

/-- The texts of the statements of a bound template have the tokens of the
template's statements, with the parameters' values for the placeholders. -/
theorem forall₂_tokens? {template bound : List Char} {parameters : List Value}
    (hplaced : Placed none .plain false template) (h : bind template parameters = .ok bound) :
    List.Forall₂ (fun old new => tokens? new = (items? old).map (·.map (Item.fill parameters)))
      (Script.statements template) (Script.statements bound) := by
  have hswap := (swap_of_fill none template hplaced h).statements
  exact hswap.imp fun old new hon => hon.tokens? (fun _ => rfl) fun _ _ => exchange_read

/-- Without dashes that begin a comment the splitter is outside quotes where the
binder is. -/
theorem modeAfter_of_no_comment {quote : Option Char} {front : List Char}
    (h : ∀ before behind, front = before ++ '-' :: '-' :: behind → quoteFrom quote before ≠ none) :
    (Script.modeAfter (quote.elim .plain .quoted) front).quote? = quoteFrom quote front ∧
      Script.modeAfter (quote.elim .plain .quoted) front ≠ .comment := by
  induction front generalizing quote with
  | nil => cases quote <;> exact ⟨rfl, by simp [Script.modeAfter]⟩
  | cons c rest ih =>
    have hrest := @ih (quoteAfter quote c) fun before behind hwhole =>
      h (c :: before) behind (congrArg (c :: ·) hwhole)
    have hafter : Script.Mode.after (quote.elim .plain .quoted) c rest.head? =
        (quoteAfter quote c).elim .plain .quoted := by
      cases quote with
      | none =>
        have hdashes : ¬(c = '-' ∧ rest.head? = some '-') := by
          rintro ⟨rfl, hhead⟩
          obtain ⟨behind, rfl⟩ : ∃ behind, rest = '-' :: behind := by
            cases rest with
            | nil => cases hhead
            | cons d more => exact ⟨more, by rw [Option.some.inj hhead]⟩
          exact h [] behind rfl rfl
        by_cases hq : Script.isQuote c = true
        · simp [Script.Mode.after, hdashes, quoteAfter, hq]
        · simp [Script.Mode.after, hdashes, quoteAfter, hq]
      | some opened =>
        by_cases hc : c = opened
        · simp [Script.Mode.after, quoteAfter, hc]
        · simp [Script.Mode.after, quoteAfter, hc]
    rw [Script.modeAfter_cons, hafter]
    exact hrest

/-- Where no comment begins, placeholders apart from what is around them are seen
by the splitter as by the binder. -/
theorem placed_of_no_comment {template : List Char}
    (hdashes : ∀ front back, template = front ++ '-' :: '-' :: back → quoteFrom none front ≠ none)
    (hapart : ∀ front digits back, Occurs template front digits back →
      quoteFrom none front = none → Apart front back) :
    Placed none .plain false template := by
  intro front digits back hoccurs
  have hmode : (Script.modeAfter .plain front).quote? = quoteFrom none front ∧
      Script.modeAfter .plain front ≠ .comment := by
    refine @modeAfter_of_no_comment none front fun before behind hwhole => ?_
    refine hdashes before (behind ++ '$' :: (digits ++ back)) ?_
    rw [hoccurs.whole, hwhole, List.append_assoc]
    rfl
  refine ⟨?_, fun hquote => ?_⟩
  · rw [← hmode.1]
    cases hm : Script.modeAfter .plain front with
    | plain => simp [Script.Mode.quote?]
    | quoted opened => simp [Script.Mode.quote?]
    | comment => exact absurd hm hmode.2
  · have happart := hapart front digits back hoccurs hquote
    exact ⟨gluedBehind_eq_false_iff.mpr happart.before, happart.behind⟩

/-! ## Quoted text -/

/-- A template is scanned in two parts if no placeholder's digits go on. -/
theorem partsFrom_append {c : Char} (hc : c.isDigit = false) (rest : List Char)
    (quote : Option Char) (front : List Char) :
    partsFrom (.ofQuote quote) (front ++ c :: rest) =
      partsFrom (.ofQuote quote) front ++
        partsFrom (.ofQuote (quoteFrom quote front)) (c :: rest) := by
  induction quote, front using scanning with
  | nil quote => cases quote <;> rfl
  | char quote d front hmark ih =>
    have hmark' : quote = none → isMark d (front ++ c :: rest).head? = false := by
      intro hq
      cases front with
      | nil => simp [isMark, hc]
      | cons e more => exact hmark hq
    rw [List.cons_append, partsFrom_char hmark', partsFrom_char hmark, ih]
    rfl
  | placeholder digits back hne hdigits hback ih =>
    have hback' : ∀ d ∈ (back ++ c :: rest).head?, d.isDigit = false := by
      cases back with
      | nil =>
        intro d hd
        obtain rfl := Option.some.inj hd
        exact hc
      | cons e more => exact hback
    rw [quoteFrom_digits hdigits, List.cons_append, List.append_assoc]
    simp only [Mode.ofQuote] at ih ⊢
    rw [partsFrom_placeholder hne hdigits hback', partsFrom_placeholder hne hdigits hback, ih]
    rfl

/-- The two parts are written one after the other. -/
theorem fill_append (parameters : List Value) (front back : List Part) :
    fill parameters (front ++ back) =
      (fill parameters front).bind fun text => (fill parameters back).map (text ++ ·) := by
  induction front with
  | nil =>
    change fill parameters back = (fill parameters back).map ([] ++ ·)
    cases fill parameters back <;> rfl
  | cons part rest ih =>
    cases part with
    | char c =>
      rw [List.cons_append, fill_char, fill_char, ih]
      cases fill parameters rest with
      | error error => rfl
      | ok text => cases fill parameters back <;> rfl
    | placeholder index =>
      rw [List.cons_append, fill_placeholder, fill_placeholder, ih]
      cases write parameters index with
      | error error => rfl
      | ok word =>
        cases fill parameters rest with
        | error error => rfl
        | ok text =>
          cases fill parameters back with
          | error error => rfl
          | ok more => exact congrArg Except.ok (List.append_assoc word text more).symm

/-- Filling parts one after another fills the first ones and then the others. -/
theorem fill_append_eq_ok_iff {parameters : List Value} {front back : List Part}
    {bound : List Char} :
    fill parameters (front ++ back) = .ok bound ↔
      ∃ text more, fill parameters front = .ok text ∧ fill parameters back = .ok more ∧
        text ++ more = bound := by
  rw [fill_append]
  cases fill parameters front with
  | error error => simp [Except.bind]
  | ok text =>
    change (fill parameters back).map (text ++ ·) = .ok bound ↔ _
    simp [Result.map_eq_ok_iff]

/-- Behind a quote everything stands for itself up to the next quote like it. -/
theorem fill_quoted {parameters : List Value} {quote : Char} {content : List Char}
    (h : quote ∉ content) (back : List Char) :
    fill parameters (partsFrom (.quoted quote) (content ++ quote :: back)) =
      (fill parameters (partsFrom .plain back)).map (content ++ quote :: ·) := by
  induction content with
  | nil =>
    rw [List.nil_append, partsFrom, if_pos rfl, fill_char]
    rfl
  | cons c rest ih =>
    have hc : c ≠ quote := fun he => h (he ▸ List.mem_cons_self)
    rw [List.cons_append, partsFrom, if_neg hc, fill_char,
      ih fun hm => h (List.mem_cons_of_mem c hm)]
    cases fill parameters (partsFrom .plain back) <;> rfl

/-- Quoted text is left as it is, and what is around it is bound by itself. -/
theorem bind_quoted {parameters : List Value} {front content back bound : List Char} {quote : Char}
    (hfront : quoteFrom none front = none) (hq : Script.isQuote quote = true)
    (hcontent : quote ∉ content)
    (h : bind (front ++ quote :: (content ++ quote :: back)) parameters = .ok bound) :
    ∃ before behind, bind front parameters = .ok before ∧ bind back parameters = .ok behind ∧
      bound = before ++ quote :: (content ++ quote :: behind) := by
  have hdigit : quote.isDigit = false ∧ quote ≠ '$' := by
    simp only [Script.isQuote, Bool.or_eq_true, beq_iff_eq] at hq
    rcases hq with rfl | rfl <;> decide
  have hmark : isMark quote (content ++ quote :: back).head? = false := by
    simp [isMark, hdigit.2]
  have hopened : quoteAfter none quote = some quote := by simp [quoteAfter, hq]
  have hparts := partsFrom_append hdigit.1 (content ++ quote :: back) none front
  rw [hfront, partsFrom_char fun _ => hmark, hopened] at hparts
  simp only [Mode.ofQuote] at hparts
  rw [bind, parts, hparts] at h
  obtain ⟨before, more, hbefore, hmore, rfl⟩ := fill_append_eq_ok_iff.mp h
  rw [fill_char, fill_quoted hcontent] at hmore
  obtain ⟨_, hinner, rfl⟩ := Result.map_eq_ok_iff.mp hmore
  obtain ⟨behind, hbehind, rfl⟩ := Result.map_eq_ok_iff.mp hinner
  exact ⟨before, behind, hbefore, hbehind, rfl⟩

/-! ## Bound templates -/

/-- A template with a placeholder outside quotes for which nothing can be
written. -/
def Unbindable (template : List Char) (parameters : List Value) : Prop :=
  ∃ front digits back, Occurs template front digits back ∧ quoteFrom none front = none ∧
    Unfit parameters (indexOf digits)

/-- The bound template is read as the template's tokens with the parameters'
values in the places of the placeholders. -/
theorem tokenize_of_items? {template bound : List Char} {parameters : List Value}
    (hplaced : Placed none .plain false template) (h : bind template parameters = .ok bound)
    {lists : List (List Item)} (hlists : (Script.statements template).mapM items? = some lists) :
    (Script.statements bound).mapM tokenize =
      .ok (lists.map fun list => list.map (Item.fill parameters)) := by
  have htokens := forall₂_tokens? hplaced h
  generalize Script.statements template = old at hlists htokens
  generalize Script.statements bound = new at htokens
  rw [Result.mapM_eq_ok_iff]
  induction htokens generalizing lists with
  | nil =>
    cases hlists
    exact .nil
  | @cons text text' texts texts' hfirst hrest ih =>
    rw [List.mapM_cons] at hlists
    cases hitems : items? text with
    | none =>
      rw [hitems] at hlists
      cases hlists
    | some items =>
      cases hmore : texts.mapM items? with
      | none =>
        rw [hitems, hmore] at hlists
        cases hlists
      | some more =>
        rw [hitems, hmore] at hlists
        cases hlists
        rw [hitems] at hfirst
        exact .cons (tokenize_eq_ok_iff.mpr hfirst) (ih hmore)

/-- Binding and reading a template without comments whose placeholders stand
apart from what is around them. Binding fails exactly if a placeholder cannot be
filled. Otherwise, if the template itself can be split and read with every
placeholder as one item, the bound text has these items as tokens, each
placeholder replaced by the value of its parameter; and quoted text is left as
it is. -/
theorem bind_reads_back (template : List Char) (parameters : List Value)
    (hdashes : ∀ front back, template = front ++ '-' :: '-' :: back → quoteFrom none front ≠ none)
    (hapart : ∀ front digits back, Occurs template front digits back →
      quoteFrom none front = none → Apart front back) :
    ((∃ error, bind template parameters = .error error) ↔ Unbindable template parameters) ∧
    (¬ Unbindable template parameters → ∃ bound, bind template parameters = .ok bound ∧
      (∀ lists, (Script.statements template).mapM items? = some lists →
        (Script.statements bound).mapM tokenize =
          .ok (lists.map fun list => list.map (Item.fill parameters))) ∧
      ∀ front quote content back, template = front ++ quote :: (content ++ quote :: back) →
        quoteFrom none front = none → Script.isQuote quote = true → quote ∉ content →
        ∃ before behind, bind front parameters = .ok before ∧
          bind back parameters = .ok behind ∧
          bound = before ++ quote :: (content ++ quote :: behind)) := by
  have hfails : (∃ error, bind template parameters = .error error) ↔
      Unbindable template parameters := exists_fill_error_iff parameters none template
  refine ⟨hfails, fun hfit => ?_⟩
  cases hbind : bind template parameters with
  | error error => exact absurd (hfails.mp ⟨error, hbind⟩) hfit
  | ok bound =>
    refine ⟨bound, rfl, fun lists hlists => ?_, ?_⟩
    · exact tokenize_of_items? (placed_of_no_comment hdashes hapart) hbind hlists
    · rintro front quote content back rfl hfront hq hcontent
      exact bind_quoted hfront hq hcontent hbind

/-- A value that looks like a comment, a second statement and a placeholder. -/
theorem bind_reads_back_of_text :
    ∃ bound, bind "a = $1 ; b".toList [.text "it's;\n--  $2"] = .ok bound ∧
      (Script.statements bound).mapM tokenize =
        .ok [[.identifier "a", .operator .equal, .literal (.text "it's;\n--  $2")],
          [.identifier "b"]] := by
  have hbound : ∃ bound, bind "a = $1 ; b".toList [.text "it's;\n--  $2"] = .ok bound := ⟨_, rfl⟩
  have hoccurs (front digits back : List Char) (h : Occurs "a = $1 ; b".toList front digits back) :
      front = "a = ".toList ∧ digits ++ back = "1 ; b".toList :=
    @Occurs.eq_of_not_mem "a = ".toList "1 ; b".toList front digits back (by decide) (by decide) h
  obtain ⟨hfails, hreads⟩ := bind_reads_back "a = $1 ; b".toList [.text "it's;\n--  $2"]
    (fun front back hwhole => by
      have hdash : '-' ∉ "a = $1 ; b".toList := by decide
      rw [hwhole] at hdash
      simp at hdash)
    (fun front digits back h _ => by
      obtain ⟨rfl, hdigits⟩ := hoccurs front digits back h
      have hback : digits = ['1'] ∧ back = " ; b".toList :=
        digits_eq h.digit h.ends (List.all_eq_true.mp (by decide)) (fun _ hc => by cases hc; rfl)
          hdigits
      rw [hback.2]
      exact ⟨fun _ hc => by cases hc; rfl, fun _ hc => by cases hc; rfl⟩)
  have hfit : ¬ Unbindable "a = $1 ; b".toList [.text "it's;\n--  $2"] := by
    intro hunfit
    obtain ⟨error, herror⟩ := hfails.mpr hunfit
    obtain ⟨bound, hok⟩ := hbound
    rw [hok] at herror
    cases herror
  obtain ⟨bound, hok, htokens, _⟩ := hreads hfit
  exact ⟨bound, hok, htokens [[.token (.identifier "a"), .token (.operator .equal),
    .placeholder 1], [.token (.identifier "b")]] rfl⟩

end Template

end EmbeddedSql.Sql
