import Mathlib.Data.List.Forall2
import EmbeddedSql.Proofs.Result
import EmbeddedSql.Proofs.Sql.Placeholders
import EmbeddedSql.Proofs.Sql.Splitting
import EmbeddedSql.Sql.Reading

/-!
# How much a text can hold

A script has no more statements than characters. A bound template is no longer than its parts
with the longest of the literals that can stand in each of their places.
-/

namespace EmbeddedSql.Sql

/-! ## Scripts -/

namespace Script

/-- A script has no more pieces than characters. -/
theorem length_piecesFrom_le (mode : Mode) (script : List Char) :
    (piecesFrom mode script).length ≤ script.length := by
  induction script generalizing mode with
  | nil => exact Nat.le_refl 0
  | cons c rest ih =>
    have hpiece : (pieceAt mode c rest.head?).toList.length ≤ 1 := Option.length_toList_le
    have hrest := ih (mode.after c rest.head?)
    rw [piecesFrom, List.length_append, List.length_cons]
    omega

/-- There are no more groups with something in them than pieces. -/
theorem countP_groups_le (pieces : List Piece) :
    (groups pieces).countP (fun group => !group.isEmpty) ≤ pieces.length := by
  induction pieces with
  | nil => exact Nat.le_refl 0
  | cons piece rest ih =>
    rw [List.length_cons]
    by_cases hstop : piece = .stop
    · rw [hstop, groups, List.countP_cons_of_neg (by simp)]
      exact Nat.le_succ_of_le ih
    · obtain ⟨group, others, hrest⟩ := List.exists_cons_of_ne_nil (groups_ne_nil rest)
      rw [groups_cons hstop hrest, List.countP_cons_of_pos rfl]
      rw [hrest, List.countP_cons] at ih
      omega

/-- A script has no more statements than characters. -/
theorem length_statements_le (script : List Char) :
    (statements script).length ≤ script.length := by
  have hkept (group : List Piece) (h : (!(Text.trim (join group)).isEmpty) = true) :
      (!group.isEmpty) = true := by
    cases group with
    | nil => exact h
    | cons piece rest => rfl
  rw [statements, ← List.countP_eq_length_filter, List.countP_map]
  calc (groups (piecesFrom .plain script)).countP
        ((fun text => !text.isEmpty) ∘ fun group => Text.trim (join group))
      ≤ (groups (piecesFrom .plain script)).countP (fun group => !group.isEmpty) :=
        List.countP_mono_left fun group _ h => hkept group h
    _ ≤ (piecesFrom .plain script).length := countP_groups_le _
    _ ≤ script.length := length_piecesFrom_le .plain script

end Script

/-- A script has no more statements than characters. -/
theorem length_parseScript_le {script : List Char} {statements : List Statement}
    (h : parseScript script = .ok statements) : statements.length ≤ script.length := by
  rw [← (Result.mapM_eq_ok_iff.mp h).length_eq]
  exact Script.length_statements_le script

/-! ## Templates -/

namespace Template

/-- A template has no more parts than characters. -/
theorem length_partsFrom_le (mode : Mode) (template : List Char) :
    (partsFrom mode template).length ≤ template.length := by
  induction template generalizing mode with
  | nil => exact Nat.le_refl 0
  | cons c rest ih =>
    have hskip (mode : Mode) : (partsFrom mode rest).length ≤ (c :: rest).length :=
      Nat.le_succ_of_le (ih mode)
    cases mode with
    | quoted quote => exact Nat.succ_le_succ (ih _)
    | index soFar =>
      simp only [partsFrom]
      split
      · exact hskip _
      · exact Nat.succ_le_succ (ih _)
    | plain =>
      simp only [partsFrom]
      split
      · exact hskip _
      · exact Nat.succ_le_succ (ih _)

/-- A text in quotes is longer by its two quotes. -/
theorem length_quote? {text quoted : List Char} (h : quote? text = some quoted) :
    quoted.length = text.length + 2 := by
  unfold quote? at h
  split at h
  · cases h
    simp
  · split at h
    · cases h
      simp
    · cases h

/-- A parameter that is found is one of the list. -/
theorem mem_of_parameter? {parameters : List Value} {index : Nat} {value : Value}
    (h : parameter? parameters index = some value) : value ∈ parameters := by
  cases index with
  | zero => cases h
  | succ n => exact List.mem_of_getElem? h

/-- A literal is a little longer than the bare text of its value, at the most. -/
theorem length_literal_le {value : Value} {text : List Char} (h : literal value = .ok text) :
    text.length ≤ value.display.length + 3 := by
  cases value with
  | number n =>
    simp only [literal] at h
    split at h
    · cases h
      simp [Value.display]
    · cases h
  | text s =>
    simp only [literal] at h
    split at h
    next quoted hq =>
      cases h
      rw [length_quote? hq, String.length_toList]
      exact Nat.le_succ _
    next => cases h
  | boolean b =>
    cases b with
    | true =>
      cases h
      decide
    | false =>
      cases h
      decide
  | null =>
    cases h
    decide

/-- A text with literals of a limited length in it. -/
theorem length_fill_le {parameters : List Value} {limit : Nat}
    (hw : ∀ {index text}, write parameters index = .ok text → text.length ≤ limit)
    {parts : List Part} {text : List Char} (h : fill parameters parts = .ok text) :
    text.length ≤ parts.length * (1 + limit) := by
  induction parts generalizing text with
  | nil =>
    cases h
    exact Nat.zero_le _
  | cons part rest ih =>
    rw [List.length_cons, Nat.succ_mul]
    cases part with
    | char c =>
      obtain ⟨more, hmore, ht⟩ := Result.bind_eq_ok_iff.mp h
      cases ht
      have hrest := ih hmore
      rw [List.length_cons]
      omega
    | placeholder index =>
      obtain ⟨front, hfront, ht⟩ := Result.bind_eq_ok_iff.mp h
      obtain ⟨more, hmore, ht⟩ := Result.bind_eq_ok_iff.mp ht
      cases ht
      have hliteral := hw hfront
      have hrest := ih hmore
      rw [List.length_append]
      omega

end Template

end EmbeddedSql.Sql
