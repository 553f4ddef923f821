import EmbeddedSql.Proofs.Sql.Lexemes

/-!
# Tokens and their sources

What the lexer reads as a token is a source of the token: one of its spellings, or a numeral
of its number. The token does not depend on what follows. The characters behind a source are
looked at only to see that it does not go on, so if the text is cut somewhere behind it, the
same token is read.
-/

namespace EmbeddedSql.Sql

/-! ## Sources of tokens -/

/-- What stands for a token in a text: a spelling of it, or any numeral of its number. -/
inductive Source : Token → List Char → Prop where
  /-- One of the spellings. -/
  | spelling {token : Token} {text : List Char} (h : Spells token text) : Source token text
  /-- A digit or a sign in front of one, more digits and points, with a finite value. -/
  | numeral {n : Binary64} {first : Char} {rest : List Char}
      (begins : first.isDigit = true ∨ first = '-' ∧ rest.head?.any Char.isDigit = true)
      (goes : ∀ c ∈ rest, Lexeme.isNumeral c = true)
      (value : Binary64.ofText? (first :: rest) = some n) (finite : n.isFinite = true) :
      Source (.literal (.number n)) (first :: rest)

/-- A word is a spelling of the token that it is read as. -/
theorem spells_ofWord {first : Char} {rest : List Char} (hfirst : Text.isAlphabetic first = true)
    (hrest : ∀ c ∈ rest, Lexeme.isWordPart c = true) :
    Spells (.ofWord (String.ofList (first :: rest))) (first :: rest) := by
  obtain ⟨word, hword⟩ : ∃ word, String.ofList (first :: rest) = word := ⟨_, rfl⟩
  have hlist : word.toList = first :: rest := by rw [← hword, String.toList_ofList]
  rw [hword, ← hlist]
  by_cases hreserved : upperWord word ∈ reservedWords
  · simp only [reservedWords, List.mem_append, List.mem_cons, List.not_mem_nil, or_false,
      List.mem_map] at hreserved
    rcases hreserved with ((htrue | hfalse | hnull) | ⟨k, -, hkeyword⟩) | ⟨t, -, htype⟩
    · rw [@ofWord_boolean true word htrue]
      exact .boolean htrue
    · rw [@ofWord_boolean false word hfalse]
      exact .boolean hfalse
    · rw [ofWord_null hnull]
      exact .null hnull
    · rw [ofWord_keyword hkeyword.symm]
      exact .keyword hkeyword.symm
    · rw [ofWord_columnType htype.symm]
      exact .columnType htype.symm
  · rw [ofWord_identifier hreserved]
    exact .identifier hfirst hrest hlist hreserved

namespace Lexeme

/-- A run of a class of characters that takes up a text is all of it. -/
theorem eq_of_length_takeWhile {p : Char → Bool} {text : List Char}
    (h : (text.takeWhile p).length = text.length) : text.takeWhile p = text := by
  rw [← take_length_takeWhile, h, List.take_length]

/-- A numeral that takes up all of a text is a source of its number. -/
theorem source_number {c : Char} {rest : List Char} {token : Token}
    (hbegins : c.isDigit = true ∨ c = '-' ∧ rest.head?.any Char.isDigit = true)
    (h : number c rest = .token token rest.length) : Source token (c :: rest) := by
  rcases number_cases c rest with ⟨n, hvalue, hfinite, hn⟩ | ⟨_, hn⟩
  · rw [hn, Lexeme.token.injEq] at h
    obtain ⟨rfl, hlength⟩ := h
    have hall := eq_of_length_takeWhile hlength
    rw [hall] at hvalue
    exact .numeral hbegins (fun d hd => List.mem_takeWhile_imp (hall.symm ▸ hd)) hvalue hfinite
  · rw [hn] at h
    cases h

/-- A quoted text that takes up all of a text is a source of its value. -/
theorem source_quoted {c : Char} {rest : List Char} {token : Token}
    (hquote : Script.isQuote c = true) (h : quoted c rest = .token token rest.length) :
    Source token (c :: rest) := by
  rcases quoted_cases c rest with ⟨-, hopen⟩ | ⟨content, back, rfl, hfree, hclosed, -⟩
  · rw [hopen] at h
    cases h
  · rw [hclosed, Lexeme.token.injEq, List.length_append, List.length_cons] at h
    obtain ⟨rfl, hlength⟩ := h
    obtain rfl : back = [] := List.length_eq_zero_iff.mp (by omega)
    have hspells := @Spells.text (String.ofList content) c hquote (by simpa using hfree)
    rw [String.toList_ofList] at hspells
    exact .spelling hspells

/-- A word that takes up all of a text is a source of what it spells. -/
theorem source_word {c : Char} {rest : List Char} {token : Token}
    (hletter : Text.isAlphabetic c = true) (h : word c rest = .token token rest.length) :
    Source token (c :: rest) := by
  rw [word, Lexeme.token.injEq] at h
  obtain ⟨rfl, hlength⟩ := h
  have hall := eq_of_length_takeWhile hlength
  rw [hall]
  exact .spelling (spells_ofWord hletter fun d hd => List.mem_takeWhile_imp (hall.symm ▸ hd))

/-- A sign that takes up all of a text is a source of its operator or symbol. -/
theorem source_sign {c : Char} {rest : List Char} {token : Token}
    (h : sign c rest.head? = .token token rest.length) : Source token (c :: rest) := by
  rcases sign_more h with hnone | ⟨hone, hnext⟩
  · obtain rfl := List.length_eq_zero_iff.mp hnone
    unfold sign at h
    split at h
    all_goals cases h
    all_goals first | exact .spelling (.operator _) | exact .spelling (.symbol _)
  · obtain ⟨back, rfl⟩ := List.head?_eq_some_iff.mp hnext
    obtain rfl : back = [] := List.length_eq_zero_iff.mp (by simpa using hone)
    unfold sign at h
    split at h
    all_goals cases h
    all_goals exact .spelling (.operator _)

/-- What takes up all of a text as a token is a source of the token. -/
theorem source_of_read {c : Char} {rest : List Char} {token : Token}
    (h : read c rest = .token token rest.length) : Source token (c :: rest) := by
  rcases read_cases c rest with ⟨hnumber, hr⟩ | ⟨hquote, hr⟩ | ⟨hletter, hr⟩ | hr
  · exact source_number (by simpa using hnumber) (hr ▸ h)
  · exact source_quoted hquote (hr ▸ h)
  · exact source_word hletter (hr ▸ h)
  · exact source_sign (hr ▸ h)

/-- A token takes up no more characters than there are. -/
theorem le_of_read {c : Char} {rest : List Char} {token : Token} {more : Nat}
    (h : read c rest = .token token more) : more ≤ rest.length := by
  by_cases hquote : Script.isQuote c = true
  · rw [read_of_isQuote hquote] at h
    rcases quoted_cases c rest with ⟨-, hopen⟩ | ⟨content, back, rfl, -, hclosed, -⟩
    · rw [hopen] at h
      cases h
    · rw [hclosed, Lexeme.token.injEq] at h
      rw [← h.2, List.length_append, List.length_cons]
      omega
  · have hmore := more_read_le (Bool.eq_false_iff.mpr hquote) rest
    rwa [h, Lexeme.more] at hmore

/-! ## Texts that are cut behind a token -/

/-- The first character of a text that is cut behind it is the first one of the whole text. -/
theorem head?_of_cut {cs front : List Char} {d : Char} (h : (cs ++ front).head? = some d)
    (back : List Char) : (cs ++ (front ++ back)).head? = some d := by
  rw [← List.append_assoc, List.head?_append, h, Option.some_or]

/-- A run of a class that ends in front of the cut ends there too if the text is cut. -/
theorem takeWhile_of_cut {p : Char → Bool} {cs front back : List Char}
    (h : ((cs ++ (front ++ back)).takeWhile p).length = cs.length) :
    (cs ++ front).takeWhile p = (cs ++ (front ++ back)).takeWhile p := by
  obtain ⟨hall, hback⟩ := takeWhile_stops h
  rw [takeWhile_of_stops hall hback]
  cases front with
  | nil => exact takeWhile_of_stops hall rfl
  | cons d front => exact takeWhile_of_stops hall hback

/-- A sign that is not followed by an equals sign is not followed by one if the text is
cut. -/
theorem sign_of_cut {c : Char} {next next' : Option Char} {token : Token}
    (h : sign c next = .token token 0) (hnext : next' = some '=' → next = some '=') :
    sign c next' = .token token 0 := by
  by_cases he : next = some '='
  · subst he
    unfold sign at h ⊢
    split at h
    all_goals cases h
    all_goals rfl
  · rw [← h]
    exact sign_congr c ⟨fun hn => absurd (hnext hn) he, fun hn => absurd hn he⟩

/-- If a class has the first character of a text that is cut, it has that of the whole text. -/
theorem any_head?_of_cut {p : Char → Bool} {cs front : List Char}
    (h : (cs ++ front).head?.any p = true) (back : List Char) :
    (cs ++ (front ++ back)).head?.any p = true := by
  obtain ⟨d, hhead, hd⟩ := (Option.any_eq_true _ _).mp h
  exact (Option.any_eq_true _ _).mpr ⟨d, head?_of_cut hhead back, hd⟩

/-- A digit behind a sign belongs to the number, so it is not cut off. -/
theorem number_of_cut {c : Char} {cs front back : List Char} {token : Token}
    (hbegins : (c.isDigit || (c == '-' && (cs ++ (front ++ back)).head?.any Char.isDigit)) = true)
    (h : number c (cs ++ (front ++ back)) = .token token cs.length) :
    (c.isDigit || (c == '-' && (cs ++ front).head?.any Char.isDigit)) = true ∧
      number c (cs ++ front) = .token token cs.length := by
  have hrun : ((cs ++ (front ++ back)).takeWhile isNumeral).length = cs.length := by
    rw [← more_number c, h, more]
  constructor
  · cases cs with
    | cons d cs => exact hbegins
    | nil =>
      have hnone := (@takeWhile_stops isNumeral [] (front ++ back) hrun).2
      have hdigit : (front ++ back).head?.any Char.isDigit = false := by
        refine Bool.eq_false_iff.mpr fun hd => ?_
        obtain ⟨d, hhead, hd⟩ := (Option.any_eq_true _ _).mp hd
        rw [hhead, Option.any_some, isNumeral, hd] at hnone
        cases hnone
      rw [List.nil_append, hdigit, Bool.and_false, Bool.or_false] at hbegins
      rw [hbegins, Bool.true_or]
  · rw [number, takeWhile_of_cut hrun]
    exact h

/-- A quoted text is read from a text that is cut somewhere behind it. -/
theorem quoted_of_cut {c : Char} {cs front back : List Char} {token : Token}
    (h : quoted c (cs ++ (front ++ back)) = .token token cs.length) :
    quoted c (cs ++ front) = .token token cs.length := by
  rcases quoted_cases c (cs ++ (front ++ back)) with
    ⟨-, hopen⟩ | ⟨content, behind, he, hfree, hq, -⟩
  · rw [hopen] at h
    cases h
  · rw [hq, Lexeme.token.injEq] at h
    obtain ⟨rfl, hlength⟩ := h
    obtain ⟨rfl, -⟩ := List.append_inj
      (by rw [he, List.append_assoc, List.singleton_append] :
        cs ++ (front ++ back) = (content ++ [c]) ++ behind) (by simp [← hlength])
    rw [List.append_assoc, List.singleton_append, quoted_of_closed hfree, ← hlength]

/-- A token is read from a text that is cut somewhere behind its source. -/
theorem read_of_cut {c : Char} {cs front back : List Char} {token : Token}
    (h : read c (cs ++ (front ++ back)) = .token token cs.length) :
    read c (cs ++ front) = .token token cs.length := by
  unfold read at h ⊢
  split at h
  next hbegins =>
    obtain ⟨hcut, hnumber⟩ := number_of_cut hbegins h
    rw [if_pos hcut, hnumber]
  next hbegins =>
    have hcut : ¬ (c.isDigit || (c == '-' && (cs ++ front).head?.any Char.isDigit)) = true := by
      simp only [Bool.or_eq_true, Bool.and_eq_true] at hbegins ⊢
      exact fun hn => hbegins (hn.imp_right (And.imp_right fun hd => any_head?_of_cut hd back))
    rw [if_neg hcut]
    split at h
    next hquote => rw [if_pos hquote, quoted_of_cut h]
    next hquote =>
      rw [if_neg hquote]
      split at h
      next hletter =>
        rw [word, Lexeme.token.injEq] at h
        rw [if_pos hletter, word, takeWhile_of_cut h.2, h.1, h.2]
      next hletter =>
        rw [if_neg hletter]
        cases cs with
        | cons d cs => exact h
        | nil => exact sign_of_cut h fun hn => head?_of_cut hn back

end Lexeme

end EmbeddedSql.Sql
