import EmbeddedSql.Proofs.Session.Batches
import EmbeddedSql.Proofs.Sql.Lexemes
import EmbeddedSql.Proofs.Sql.Resplitting
import EmbeddedSql.Shell.Session

/-!
# Statements at the shell

The shell splits its input itself and runs the statements one after another as
templates without parameters. Each of them is then bound and split again. Binding
leaves alone what it accepts, and it accepts every text that the lexer accepts, so the
shell meets the statements that the script has as a whole.
-/

namespace EmbeddedSql

namespace Sql

/-! ## Binding without parameters -/

namespace Template

/-- Without parameters nothing but the text itself can be written. -/
theorem eq_of_fill_nil (quote : Option Char) (text : List Char) :
    ∀ {bound : List Char}, fill [] (partsFrom (.ofQuote quote) text) = .ok bound →
      bound = text := by
  induction quote, text using scanning with
  | nil quote =>
    intro bound h
    rw [partsFrom_nil] at h
    exact (Except.ok.inj h).symm
  | char quote c rest hmark ih =>
    intro bound h
    rw [partsFrom_char hmark, fill_char] at h
    obtain ⟨text, htext, rfl⟩ := Result.map_eq_ok_iff.mp h
    rw [ih htext]
  | placeholder digits back hne hdigits hback ih =>
    intro bound h
    simp only [Mode.ofQuote] at h
    rw [partsFrom_placeholder hne hdigits hback] at h
    obtain ⟨literal, text, hwrite, _, _⟩ := fill_placeholder_eq_ok_iff.mp h
    obtain ⟨v, hv, _⟩ := write_eq_ok_iff.mp hwrite
    cases hindex : indexOf digits with
    | zero => simp [hindex, parameter?] at hv
    | succ n => simp [hindex, parameter?] at hv

/-- A word that leaves no quote open and has no dollar sign outside quotes keeps a text
behind it free of placeholders. -/
theorem Markless.append {word back : List Char} (hback : Markless none back)
    (hquote : quoteFrom none word = none)
    (hword : ∀ front behind, word = front ++ '$' :: behind → quoteFrom none front ≠ none) :
    Markless none (word ++ back) := by
  intro front digit behind h hdigit
  rcases List.append_eq_append_iff.mp h with ⟨between, rfl, hrest⟩ | ⟨between, rfl, hrest⟩
  · have hsame : quoteFrom none (word ++ between) = quoteFrom none between := by
      rw [quoteFrom, List.foldl_append]
      exact congrArg (List.foldl quoteAfter · between) hquote
    rw [hsame]
    exact hback between digit behind hrest hdigit
  · cases between with
    | nil => exact absurd rfl (hback [] digit behind hrest.symm hdigit)
    | cons c between =>
      obtain ⟨rfl, -⟩ := List.cons.inj hrest
      exact hword front between rfl

/-- Characters that are neither quotes nor dollar signs do so. -/
theorem Markless.append_of_bare {word back : List Char} (hback : Markless none back)
    (hword : ∀ c ∈ word, Script.isQuote c = false ∧ c ≠ '$') : Markless none (word ++ back) := by
  refine hback.append ?_ fun front behind h => ?_
  · induction word with
    | nil => rfl
    | cons c rest ih =>
      have hc : quoteAfter none c = none := by
        simp [quoteAfter, (hword c List.mem_cons_self).1]
      rw [quoteFrom, List.foldl_cons, hc]
      exact ih fun d hd => hword d (List.mem_cons_of_mem c hd)
  · have hmem : '$' ∈ word := h ▸ List.mem_append_right front List.mem_cons_self
    exact absurd rfl (hword '$' hmem).2

/-- So does a text in quotes. -/
theorem Markless.append_quoted {quote : Char} {content back : List Char}
    (hback : Markless none back) (hq : Script.isQuote quote = true) (h : quote ∉ content) :
    Markless none (quote :: (content ++ quote :: back)) := by
  have hopen {inside : List Char} (hi : quote ∉ inside) :
      inside.foldl quoteAfter (some quote) = some quote := by
    induction inside with
    | nil => rfl
    | cons c rest ih =>
      have hc : c ≠ quote := fun he => hi (he ▸ List.mem_cons_self)
      have hafter : quoteAfter (some quote) c = some quote := if_neg hc
      rw [List.foldl_cons, hafter, ih fun hm => hi (List.mem_cons_of_mem c hm)]
  have hfirst : quoteAfter none quote = some quote := if_pos hq
  have hdollar : '$' ≠ quote := by
    rintro rfl
    cases hq
  have hwhole : quote :: (content ++ quote :: back) = (quote :: content ++ [quote]) ++ back := by
    simp
  rw [hwhole]
  refine hback.append ?_ fun front behind hsplit => ?_
  · rw [quoteFrom, List.cons_append, List.foldl_cons, hfirst, List.foldl_append, hopen h]
    exact if_pos rfl
  · cases front with
    | nil => exact absurd (List.cons.inj hsplit).1.symm hdollar
    | cons c inside =>
      obtain ⟨rfl, hinside⟩ := List.cons.inj hsplit
      have hmem := Lexeme.not_mem_of_quoted h hinside
      rw [quoteFrom, List.foldl_cons, hfirst, hopen hmem]
      exact Option.some_ne_none _

end Template

/-- A text that the lexer accepts has no placeholder outside quotes. -/
theorem markless_of_findings {text : List Char} (h : (findings text).2 = none) :
    Template.Markless none text := by
  -- By induction along the lexer, to which a dollar sign outside quotes is nothing that can
  -- begin.
  induction text using lexing with
  | nil =>
    intro front digit back hsplit
    simp at hsplit
  | space c rest hc ih =>
    rw [findings_of_isWhitespace hc] at h
    refine @Template.Markless.append_of_bare [c] rest (ih h) fun d hd => ?_
    obtain rfl := List.mem_singleton.mp hd
    exact ⟨isQuote_of_isWhitespace hc, (Text.ne_of_isWhitespace hc).2.2.2.2.2.2.2⟩
  | token c rest token more hc hread ih =>
    have hfound : findings (c :: rest) =
        (token :: (findings (rest.drop more)).1, (findings (rest.drop more)).2) := by
      rw [findings_cons hc, findingsAt, hread]
    rw [hfound] at h
    by_cases hq : Script.isQuote c = true
    · rw [Lexeme.read_of_isQuote hq] at hread
      obtain ⟨_, hopen⟩ | ⟨content, back, rfl, hfree, hclosed, hdrop⟩ :=
        Lexeme.quoted_cases c rest
      · rw [hopen] at hread
        cases hread
      · obtain ⟨-, rfl⟩ := Lexeme.token.inj (hclosed.symm.trans hread)
        rw [hdrop] at ih h
        exact (ih h).append_quoted hq hfree
    · rw [Bool.not_eq_true] at hq
      have hwhole : c :: rest = (c :: rest.take more) ++ rest.drop more := by
        rw [List.cons_append, List.take_append_drop]
      rw [hwhole]
      refine (ih h).append_of_bare fun d hd => ?_
      rcases List.mem_cons.mp hd with rfl | hd
      · exact ⟨hq, (Lexeme.front_of_read hread).2.1⟩
      · have hinert := Lexeme.isInert_of_read hq rest d (by rw [hread]; exact hd)
        exact ⟨isQuote_of_isInert hinert.1, hinert.2⟩
  | stuck c rest hc hstuck =>
    rw [findings_cons hc, findingsAt] at h
    split at h
    next token more hread => exact absurd hread (hstuck token more)
    all_goals cases h

/-- A text that can be read as a statement is bound to itself. -/
theorem bindTemplate_of_parseStatement {text : List Char} {statement : Statement}
    (h : parseStatement text = .ok statement) : bindTemplate text [] = .ok text := by
  unfold parseStatement at h
  split at h
  next => cases h
  next tokens htokens =>
    have hfound := tokenize_eq_ok_iff_findings.mp htokens
    exact bindTemplate_of_markless (markless_of_findings (by rw [hfound])) []

/-- Without parameters binding changes nothing. -/
theorem eq_of_bindTemplate {text bound : List Char} (h : bindTemplate text [] = .ok bound) :
    bound = text :=
  Template.eq_of_fill_nil none text (Result.mapError_eq_ok_iff.mp h)

/-! ## Reading one statement after another -/

open Script (statements)

/-- A statement of a script is read as a script of its own. -/
theorem parseScript_of_mem_statements {script text : List Char} (h : text ∈ statements script)
    {list : List Statement} :
    parseScript text = .ok list ↔ ∃ statement, parseStatement text = .ok statement ∧
      list = [statement] := by
  rw [parseScript, (Script.settled_of_mem_statements h).statements_eq, Result.mapM_eq_ok_iff,
    List.forall₂_cons_left_iff]
  simp only [List.forall₂_nil_left_iff]
  constructor
  · rintro ⟨statement, _, hs, rfl, hlist⟩
    exact ⟨statement, hs, hlist⟩
  · rintro ⟨statement, hs, hlist⟩
    exact ⟨statement, [], hs, rfl, hlist⟩

/-- So it is as a template without parameters. -/
theorem bind_parseScript_of_mem_statements {script text : List Char}
    (h : text ∈ statements script) {statement : Statement} :
    (bindTemplate text [] >>= parseScript) = .ok [statement] ↔
      parseStatement text = .ok statement := by
  rw [Result.bind_eq_ok_iff]
  constructor
  · rintro ⟨bound, hbound, hread⟩
    rw [eq_of_bindTemplate hbound, parseScript_of_mem_statements h] at hread
    obtain ⟨other, hother, hlist⟩ := hread
    exact (List.cons.inj hlist).1 ▸ hother
  · intro hread
    exact ⟨text, bindTemplate_of_parseStatement hread,
      (parseScript_of_mem_statements h).mpr ⟨statement, hread, rfl⟩⟩

end Sql

/-! ## Running one statement after another -/

variable {σ : Type} {backend : Storage.Backend σ}

/-- A text that is bound to itself and read as one statement runs as that statement. -/
theorem Handle.run_of_read {text : List Char} {statement : Sql.Statement}
    (hb : Sql.bindTemplate text [] = .ok text) (hp : Sql.parseScript text = .ok [statement])
    (handle : Handle) (store : σ) :
    handle.run backend text [] store = handle.execute backend statement store := by
  rw [run, hb]
  simp only [hp, executeLast]
  rcases handle.execute backend statement store with ⟨after, left, result⟩
  cases result <;> rfl

/-- The shell leaves the handle and the store as the statements do that its texts are
read as. -/
theorem Shell.executeAll_of_read {texts : List (List Char)} {list : List Sql.Statement}
    (h : List.Forall₂ (fun text statement => Sql.bindTemplate text [] = .ok text ∧
      Sql.parseScript text = .ok [statement]) texts list)
    (done : List (List Row)) (handle : Handle) (store : σ) :
    (executeAll backend texts handle store).1 =
        (Handle.executeAll backend done list handle store).1 ∧
      (executeAll backend texts handle store).2.1 =
        (Handle.executeAll backend done list handle store).2.1 := by
  induction h generalizing done handle store with
  | nil => exact ⟨rfl, rfl⟩
  | @cons text statement texts list hread _ ih =>
    rw [executeAll, Handle.executeAll, Handle.run_of_read hread.1 hread.2]
    rcases handle.execute backend statement store with ⟨after, left, result⟩
    cases result with
    | error e => exact ⟨rfl, rfl⟩
    | ok rows => exact ih (done ++ [rows]) after left

namespace Sql

open Script (statements)

/-- Splitting respects how a script is put together and changes nothing when it is done
again: a semicolon on a line of its own stands between the statements of what it
separates, a statement is split into itself, and so are the statements with semicolons
between them. Binding without parameters does not change what is split. The statements
of a script, bound and read one by one, are therefore those that it is read as at once,
and the shell runs the same ones as the whole batch does. -/
theorem statements_compositional :
    (∀ front back : List Char, (∀ quote, Script.modeAfter .plain front ≠ .quoted quote) →
      statements (front ++ "\n;".toList ++ back) = statements front ++ statements back) ∧
    (∀ script, ∀ text ∈ statements script, statements text = [text]) ∧
    (∀ script, statements ([';'].intercalate (statements script)) = statements script) ∧
    (∀ text bound, bindTemplate text [] = .ok bound → statements bound = statements text) ∧
    (∀ script list, parseScript script = .ok list ↔
      (statements script).mapM (fun text => bindTemplate text [] >>= parseScript) =
        .ok (list.map ([·]))) ∧
    ∀ {σ : Type} (backend : Storage.Backend σ) (handle : Handle) (store : σ) script list,
      parseScript script = .ok list →
      let shell := Shell.executeAll backend (statements script) handle store
      let batch := handle.runAll backend script store
      (shell.1 = batch.1 ∧ shell.2.1 = batch.2.1) ∧
        ∀ bound, bindTemplate script [] = .ok bound →
          let whole := handle.run backend script [] store
          shell.1 = whole.1 ∧ shell.2.1 = whole.2.1 := by
  refine ⟨fun front back h => ?_,
    fun script text h => (Script.settled_of_mem_statements h).statements_eq,
    Script.statements_intercalate, fun text bound h => by rw [eq_of_bindTemplate h],
    fun script list => ?_, fun backend handle store script list h => ?_⟩
  · have hline : front ++ "\n;".toList ++ back = front ++ '\n' :: ';' :: back := by simp
    rw [hline]
    exact Script.statements_append_newline h back
  · rw [parseScript, Result.mapM_eq_ok_iff, Result.mapM_eq_ok_iff, List.forall₂_map_right_iff]
    constructor
    · intro h
      have hmem := (List.forall₂_and_left _ _).mpr ⟨fun text ht => ht, h⟩
      exact hmem.imp fun text _ ht => (bind_parseScript_of_mem_statements ht.1).mpr ht.2
    · intro h
      have hmem := (List.forall₂_and_left _ _).mpr ⟨fun text ht => ht, h⟩
      exact hmem.imp fun text _ ht => (bind_parseScript_of_mem_statements ht.1).mp ht.2
  · have hread := (List.forall₂_and_left _ _).mpr
      ⟨fun text ht => ht, Result.mapM_eq_ok_iff.mp h⟩
    -- Each statement is read in the shell as it was read in the batch.
    have hbatch := @Shell.executeAll_of_read _ backend _ _
      (hread.imp fun text statement ht => ⟨bindTemplate_of_parseStatement ht.2,
        (parseScript_of_mem_statements ht.1).mpr ⟨statement, ht.2, rfl⟩⟩) [] handle store
    have hrun : handle.runAll backend script store = handle.executeAll backend [] list store := by
      rw [Handle.runAll, h]
    refine ⟨hrun ▸ hbatch, fun bound hbound => ?_⟩
    rw [Handle.run_eq, hbound, eq_of_bindTemplate hbound]
    simp only [hrun]
    rcases hend : handle.executeAll backend [] list store with ⟨after, left, result⟩
    rw [hend] at hbatch
    cases result with
    | error e => exact hbatch
    | ok results => exact hbatch

/-- A script whose first line ends in a comment with a quote in it. -/
theorem statements_compositional_of_comment :
    let front : List Char := "DROP TABLE  IF EXISTS t -- it's".toList
    let back : List Char := "CREATE TABLE t (a TEXT)".toList
    let script : List Char := front ++ "\n;".toList ++ back
    let shell := Shell.executeAll Storage.memory (statements script) ⟨.default, []⟩ .empty
    (Script.modeAfter .plain front = .comment ∧
      statements script = ["DROP TABLE IF EXISTS t".toList, back] ∧
      (parseScript script).isOk = true) ∧
    statements script = statements front ++ statements back ∧
    statements "DROP TABLE IF EXISTS t".toList = ["DROP TABLE IF EXISTS t".toList] ∧
    shell.1 = (Handle.runAll Storage.memory script ⟨.default, []⟩ .empty).1 ∧
      shell.1 = (Handle.run Storage.memory script [] ⟨.default, []⟩ .empty).1 := by
  intro front back script shell
  have hmode : Script.modeAfter .plain front = .comment := by decide +kernel
  have hsplit : statements script = ["DROP TABLE IF EXISTS t".toList, back] := by decide +kernel
  have hok : (parseScript script).isOk = true := by decide +kernel
  have hbound : bindTemplate script [] = .ok script := by decide +kernel
  obtain ⟨list, hlist⟩ : ∃ list, parseScript script = .ok list := by
    cases hread : parseScript script with
    | ok list => exact ⟨list, rfl⟩
    | error e => rw [hread] at hok; cases hok
  obtain ⟨happend, hsingle, -, -, -, hrun⟩ := statements_compositional
  obtain ⟨hbatch, hwhole⟩ := hrun Storage.memory ⟨.default, []⟩ .empty script list hlist
  exact ⟨⟨hmode, hsplit, hok⟩, happend front back (by simp [hmode]),
    hsingle script _ (by rw [hsplit]; exact List.mem_cons_self), hbatch.1,
    (hwhole script hbound).1⟩

end Sql

end EmbeddedSql
