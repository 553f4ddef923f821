import EmbeddedSql.Proofs.Session.Passage

/-!
# How tables become known and are forgotten

A table becomes known when a statement that looked for it has found it, and when one that
makes it has stored it; it is forgotten when a statement ends that has removed it from the
store. No other move changes what is known.
-/

namespace EmbeddedSql.Session.System

open Sql Lock

variable {s t : System} {config : Config} {hand : Nat} {statement : Statement}

/-! ## Tables that come and go -/

/-- The table that a statement has removed from the store and not yet ended. -/
def removed? (s : System) (number : Nat) : Option String :=
  match s.calls[number]? with
  | some ⟨.execute (.drop drop), .storing _ _ _ (some (.ok ()))⟩ => some drop.table
  | _ => none

/-- By a move a statement ends that has removed a table from the store. -/
def Drops (s : System) (table : String) : Move → Prop
  | .resume number => s.removed? number = some table
  | _ => False

/-- A call has removed a table exactly if it is a statement that removes it and has written,
and not yet gone on. -/
theorem removed?_eq_some_iff {number : Nat} {table : String} :
    s.removed? number = some table ↔ ∃ drop locks document rows, drop.table = table ∧
      s.calls[number]? =
        some ⟨.execute (.drop drop), .storing locks document rows (some (.ok ()))⟩ := by
  unfold removed?
  constructor
  · intro h
    split at h
    next drop locks document rows hs => exact ⟨drop, locks, document, rows, Option.some.inj h, hs⟩
    next => cases h
  · rintro ⟨drop, locks, document, rows, rfl, hs⟩
    rw [hs]

/-- A move that ends the removal of a table is that of the statement that removes it. -/
theorem Drops.exists_drop {table : String} {move : Move} (h : s.Drops table move) :
    ∃ number drop locks document rows, move = .resume number ∧ drop.table = table ∧
      s.calls[number]? =
        some ⟨.execute (.drop drop), .storing locks document rows (some (.ok ()))⟩ := by
  cases move with
  | resume number =>
    obtain ⟨drop, locks, document, rows, htable, hs⟩ := removed?_eq_some_iff.mp h
    exact ⟨number, drop, locks, document, rows, rfl, htable, hs⟩
  | _ => exact h.elim

/-- The table that a statement has stored as a new one and not yet ended. -/
def made? (s : System) (number : Nat) : Option String :=
  match s.calls[number]? with
  | some ⟨.execute (.create create), .storing _ _ _ (some (.ok ()))⟩ => some create.table
  | _ => none

/-- A call has made a table exactly if it is a statement that makes it and has written, and not
yet gone on. -/
theorem made?_eq_some_iff {number : Nat} {table : String} :
    s.made? number = some table ↔ ∃ create locks document rows, create.table = table ∧
      s.calls[number]? =
        some ⟨.execute (.create create), .storing locks document rows (some (.ok ()))⟩ := by
  unfold made?
  constructor
  · intro h
    split at h
    next create locks document rows hs =>
      exact ⟨create, locks, document, rows, Option.some.inj h, hs⟩
    next => cases h
  · rintro ⟨create, locks, document, rows, rfl, hs⟩
    rw [hs]

/-- A statement that writes a document is inside the guard of its table. -/
theorem Reached.guard_of_storing (h : Reached config s) {locks : Locks} {document : Document}
    {rows : List Row} {answer : Option (Except StorageError Unit)}
    (hs : s.calls[hand]? = some ⟨.execute statement, .storing locks document rows answer⟩)
    (ha : statement.AsksGuard) :
    ∃ guard, locks.guard = some guard ∧ (statement.table, guard) ∈ s.known := by
  rcases h.placed hs ha with ⟨_, he⟩ | ⟨guard, hb⟩
  · cases he
  · cases hb with
    | past hb =>
      cases hb with
      | inside hi =>
        obtain ⟨guard', hg, he⟩ := Option.map_eq_some_iff.mp hi
        cases he
        have hspot : s.HasAccess hand statement guard := by
          rw [HasAccess, spotOf, hs]
          simp only [Option.bind_some, hi, Option.map_some]
        exact ⟨guard, hg, h.orderly.admitted hspot⟩
      | ended he => cases he

/-! ## What a move does to the known tables -/

/-- What is known after a move. -/
inductive Knows (s : System) : Move → List (String × Nat) → Prop where
  /-- A statement that looked its table up has found it. -/
  | found {number : Nat} {statement : Statement} {document : Document}
    (stands : s.calls[number]? = some ⟨.execute statement, .finding (some (.ok document))⟩)
    (contains : document.contains statement.table = true) :
    Knows s (.resume number) (s.register statement.table).known
  /-- A statement ends that has stored a new table. -/
  | made {number : Nat} {table : String} (makes : s.made? number = some table) :
    Knows s (.resume number) (s.register table).known
  /-- A statement ends that has removed a table. -/
  | removed {number guard : Nat} {table : String} (removes : s.removed? number = some table)
    (known : (table, guard) ∈ s.known) :
    Knows s (.resume number) (s.known.filter fun entry => entry ≠ (table, guard))
  /-- Everything stays as it is. -/
  | same {move : Move} (quiet : ∀ number, move = .resume number →
      s.made? number = none ∧ s.removed? number = none) : Knows s move s.known

/-- Asking for the commit lock makes nothing known. -/
theorem known_askCommit (s : System) (hand : Nat) (guard : Option Nat) :
    (s.askCommit hand guard).known = s.known := by
  unfold System.askCommit
  simp only
  split
  · rfl
  · rfl

/-- What a request for a guard comes to makes nothing known. -/
theorem known_afterGuard (s : System) (hand : Nat) (statement : Statement) (number : Nat)
    (progress : Progress) : (s.afterGuard hand statement number progress).known = s.known := by
  have hcommit := known_askCommit s hand (some number)
  cases progress with
  | failed => rfl
  | waiting stage => rfl
  | granted =>
    cases statement with
    | select statement => rfl
    | insert statement => exact hcommit
    | update statement => exact hcommit
    | delete statement => exact hcommit
    | create statement => exact hcommit
    | drop statement => exact hcommit

/-- Asking for a guard makes nothing known. -/
theorem known_askGuard (s : System) (hand : Nat) (statement : Statement) (number : Nat) :
    (s.askGuard hand statement number).known = s.known :=
  known_afterGuard _ hand statement number _

/-- A call that begins makes nothing known. -/
theorem known_begin (s : System) (call : Call) : (s.begin call).known = s.known := by
  cases call with
  | tableNames => rfl
  | schema table => rfl
  | execute statement =>
    simp only [System.begin]
    unfold System.beginStatement
    split
    · split
      · rfl
      · exact known_askCommit _ _ none
    · split
      · exact known_askGuard _ _ _ _
      · rfl

/-- A call that returns makes nothing known. -/
theorem known_finish (s : System) (hand : Nat) (locks : Locks) (result : Except Error Reply) :
    (s.finish hand locks result).known = s.known :=
  known_unlock s hand locks

/-- What a call does with the document makes nothing known. -/
theorem known_afterLoading (s : System) (hand : Nat) (call : Call) (locks : Locks)
    (answer : Except StorageError Document) :
    (s.afterLoading hand call locks answer).known = s.known := by
  rcases afterLoading_cases s hand call locks answer with ⟨result, he⟩ |
    ⟨_, _, _, _, _, _, _, _, he⟩
  · rw [he, known_finish]
  · rw [he]
    rfl

/-- A move that is none of those that change what is known. -/
theorem knows_of_ne {move : Move} (h : t.known = s.known) (hn : ∀ number, move ≠ .resume number) :
    s.Knows move t.known := by
  rw [h]
  exact .same fun number he => absurd he (hn number)

/-- A statement that has written the changed document settles what is known. -/
theorem Reached.knows_afterStoring (h : Reached config s) {call : Call} {locks : Locks}
    {document : Document} {rows : List Row} {answer : Except StorageError Unit}
    (ha : s.calls[hand]? = some ⟨call, .storing locks document rows (some answer)⟩) :
    s.Knows (.resume hand) (s.afterStoring hand call locks rows answer).known := by
  -- Nothing becomes known if there is neither a new nor a removed table.
  have hsame (hmade : s.made? hand = none) (hremoved : s.removed? hand = none) :
      s.Knows (.resume hand) s.known := by
    refine .same fun number he => ?_
    cases he
    exact ⟨hmade, hremoved⟩
  cases answer with
  | error e =>
    rw [System.afterStoring, known_finish]
    exact hsame (by simp only [made?, ha]) (by simp only [removed?, ha])
  | ok =>
    simp only [System.afterStoring, known_finish]
    split
    next create => exact .made (by simp only [made?, ha])
    next drop =>
      obtain ⟨guard, hg, hk⟩ := h.guard_of_storing ha trivial
      simp only [hg]
      exact .removed (by simp only [removed?, ha]) hk
    next hcreate hdrop =>
      refine hsame ?_ ?_
      · simp only [made?, ha]
        split
        next he =>
          cases he
          exact absurd rfl (hcreate _)
        next => rfl
      · simp only [removed?, ha]
        split
        next he =>
          cases he
          exact absurd rfl (hdrop _)
        next => rfl

/-- A call that has not written a document settles nothing when it goes on. -/
theorem knows_of_stage (h : t.known = s.known) {call : Call} {stage : Stage}
    (ha : s.calls[hand]? = some ⟨call, stage⟩)
    (hs : ∀ locks document rows answer, stage ≠ .storing locks document rows (some answer)) :
    s.Knows (.resume hand) t.known := by
  rw [h]
  refine .same fun number he => ?_
  cases he
  constructor
  · refine Option.eq_none_iff_forall_ne_some.mpr fun table hn => ?_
    obtain ⟨_, locks, document, rows, _, hstored⟩ := made?_eq_some_iff.mp hn
    rw [ha] at hstored
    cases hstored
    exact hs locks document rows _ rfl
  · refine Option.eq_none_iff_forall_ne_some.mpr fun table hn => ?_
    obtain ⟨_, locks, document, rows, _, hstored⟩ := removed?_eq_some_iff.mp hn
    rw [ha] at hstored
    cases hstored
    exact hs locks document rows _ rfl

/-- A statement that has looked its table up knows it if it is there. -/
theorem knows_afterFinding {answer : Except StorageError Document}
    (ha : s.calls[hand]? = some ⟨.execute statement, .finding (some answer)⟩) :
    s.Knows (.resume hand) (s.afterFinding hand statement answer).known := by
  cases answer with
  | error e => exact knows_of_stage (t := s.setStage hand _) rfl ha nofun
  | ok document =>
    unfold System.afterFinding
    simp only
    split
    next hc =>
      obtain ⟨number, hg⟩ := exists_guardOf?_register s statement.table
      simp only [hg, known_askGuard]
      exact .found ha hc
    next => exact knows_of_stage (t := s.setStage hand _) rfl ha nofun

/-- A call that is given up makes nothing known and forgets nothing. -/
theorem known_abort (hm : s.abort hand = some t) : t.known = s.known := by
  unfold System.abort at hm
  obtain ⟨⟨call, stage⟩, _, hm⟩ := Option.bind_eq_some_iff.mp hm
  simp only at hm
  cases stage with
  | finding answer =>
    cases hm
    rfl
  | queued guard =>
    cases hm
    rfl
  | committing guard =>
    cases hm
    exact known_unlock _ hand _
  | loading locks answer =>
    cases hm
    exact known_unlock s hand locks
  | storing locks document rows answer =>
    cases hm
    exact known_unlock s hand locks
  | finished result => cases hm
  | aborted => cases hm

/-- What is known after a move of a system that is reached. -/
theorem Reached.knows (h : Reached config s) {move : Move} (hm : s.move move = some t) :
    s.Knows move t.known := by
  by_cases hb : ∃ call, move = .begin call
  · obtain ⟨call, rfl⟩ := hb
    cases hm
    exact knows_of_ne (known_begin s call) nofun
  · obtain ⟨⟨call, stage⟩, ha⟩ := exists_of_caller hm fun call he => hb ⟨call, he⟩
    generalize hc : move.caller s = number at ha
    cases step_of_caller hm ha hc.symm with
    | looked failure => exact knows_of_ne rfl nofun
    | found answer => exact knows_afterFinding ha
    | heard hprogress => exact knows_of_stage (known_afterGuard ..) ha nofun
    | expired htimeout => exact knows_of_ne rfl nofun
    | locked hgranted => exact knows_of_stage rfl ha nofun
    | unlocked hgranted => exact knows_of_stage rfl ha nofun
    | read failure => exact knows_of_ne rfl nofun
    | loaded answer => exact knows_of_stage (known_afterLoading ..) ha nofun
    | written => exact knows_of_ne rfl nofun
    | failed e => exact knows_of_ne rfl nofun
    | stored answer => exact h.knows_afterStoring ha
    | abandoned hleft hs => exact knows_of_ne (known_abort hm) nofun

/-! ## A guard as long as its table is not removed -/

/-- A table is known by one guard at the most, so the guard that is found for it is the one by
which it is known. -/
theorem guardOf?_eq_some_iff (h : s.Orderly) {table : String} {guard : Nat} :
    s.guardOf? table = some guard ↔ (table, guard) ∈ s.known := by
  refine ⟨mem_known_of_guardOf?, fun hk => ?_⟩
  cases hg : s.guardOf? table with
  | none => exact absurd (List.mem_map_of_mem hk) (not_mem_known hg)
  | some other =>
    have hentry := List.inj_on_of_nodup_map h.tables (mem_known_of_guardOf? hg) hk rfl
    exact congrArg (fun entry => some entry.2) hentry

/-- What is known stays known when a table gets a guard. -/
theorem mem_known_register {entry : String × Nat} (h : entry ∈ s.known) (table : String) :
    entry ∈ (s.register table).known := by
  unfold System.register
  split
  · exact h
  · exact List.mem_append_left _ h

/-- A table keeps its guard by every move that does not end its removal. -/
theorem Reached.guardOf?_move (h : Reached config s) {move : Move} (hm : s.move move = some t)
    {table : String} {guard : Nat} (hg : s.guardOf? table = some guard)
    (hd : ¬ s.Drops table move) : t.guardOf? table = some guard := by
  rw [guardOf?_eq_some_iff h.orderly] at hg
  rw [guardOf?_eq_some_iff (h.move hm).orderly]
  generalize hknown : t.known = known
  have hknows := h.knows hm
  rw [hknown] at hknows
  cases hknows with
  | found stands contains => exact mem_known_register hg _
  | made makes => exact mem_known_register hg _
  | @removed number other name removes known =>
    refine List.mem_filter.mpr ⟨hg, decide_eq_true fun he => hd ?_⟩
    rw [(Prod.mk.inj he).1]
    exact removes
  | same quiet => exact hg

end EmbeddedSql.Session.System
