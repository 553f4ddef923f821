import EmbeddedSql.Proofs.Session.Guarded
import EmbeddedSql.Proofs.Session.Moves

/-!
# Who has access to a table together

A statement has access to its table from the moment its guard lets it in until
it gives its locks back. Guards come and go: a table has none until somebody
looks for it, a removed table takes its guard along, and a table that is made
again gets another one. Whatever moves a system makes, and whatever somebody
else stores meanwhile, statements that have access to one table at once are
selections, and they are inside one guard, which is open.
-/

namespace EmbeddedSql.Session.System

open Sql Lock

variable {s t : System} {hand : Nat} {call : Call} {place : Option (Call × Spot)}

/-! ## Asking for locks -/

/-- A call asks for the commit lock and stays where it is. -/
theorem Seen.askCommit {guard : Option Nat}
    (h : s.Seen hand ((guard.map Spot.inside).map fun spot => (call, spot)))
    (hp : (s.calls[hand]?).map (·.call) = some call) : (s.askCommit hand guard).Orderly := by
  have hasked : ({ s with commit := (s.commit.request hand).1 } : System).Seen hand
      ((guard.map Spot.inside).map fun spot => (call, spot)) := h.congr rfl rfl rfl
  unfold System.askCommit
  simp only
  split
  · exact hasked.putAt hp rfl
  · exact hasked.putAt hp rfl

/-- A statement has heard from the guard of its table. -/
theorem Seen.afterGuard {statement : Statement} {number : Nat} {progress : Progress}
    (h : s.Seen hand (placeAfter statement number progress))
    (hp : (s.calls[hand]?).map (·.call) = some (.execute statement)) :
    (s.afterGuard hand statement number progress).Orderly := by
  cases progress with
  | failed => exact h.putAt hp rfl
  | waiting stage => exact h.putAt hp rfl
  | granted =>
    have hcommit : (s.askCommit hand (some number)).Orderly := h.askCommit hp
    cases statement with
    | select statement => exact h.putAt hp rfl
    | insert statement => exact hcommit
    | update statement => exact hcommit
    | delete statement => exact hcommit
    | create statement => exact hcommit
    | drop statement => exact hcommit

/-- A statement that stands nowhere asks for the guard of its table. -/
theorem Seen.askGuard {statement : Statement} {number : Nat} (h : s.Seen hand none)
    (hk : (statement.table, number) ∈ s.known)
    (hp : (s.calls[hand]?).map (·.call) = some (.execute statement)) :
    (s.askGuard hand statement number).Orderly :=
  (h.request hk).afterGuard hp

/-! ## Beginning -/

/-- A statement begins. -/
theorem Seen.beginStatement {statement : Statement} (h : s.Seen hand none)
    (hp : (s.calls[hand]?).map (·.call) = some (.execute statement)) :
    (s.beginStatement hand statement).Orderly := by
  unfold System.beginStatement
  split
  · split
    · exact h.putAt hp rfl
    · exact Seen.askCommit h hp
  · split
    next number hg => exact h.askGuard (mem_known_of_guardOf? hg) hp
    next => exact h.putAt hp rfl

/-- A new call stands nowhere. -/
theorem Orderly.grow (h : s.Orderly) (call : Call) :
    ({ s with calls := s.calls ++ [⟨call, .loading ⟨none, false⟩ none⟩] } : System).Seen
      s.calls.length none := by
  have hspots : Function.update (System.spotOf
      { s with calls := s.calls ++ [⟨call, .loading ⟨none, false⟩ none⟩] }) s.calls.length none =
      s.spotOf := by
    funext number
    by_cases hn : number = s.calls.length
    · rw [hn, Function.update_self, spotOf, List.getElem?_eq_none (Nat.le_refl _)]
      rfl
    · rw [Function.update_of_ne hn, spotOf, getElem?_grow hn, spotOf]
  rw [Seen, hspots]
  exact Guarded.congr h rfl rfl

/-- A call begins. -/
theorem Orderly.begin (h : s.Orderly) (call : Call) : (s.begin call).Orderly := by
  have hgrown := h.grow call
  have hp : ((s.calls ++ [⟨call, .loading ⟨none, false⟩ none⟩])[s.calls.length]?).map (·.call) =
      some call := by simp
  -- A call that is no statement reads without a guard.
  have hplain : System.Orderly
      { s with calls := s.calls ++ [⟨call, .loading ⟨none, false⟩ none⟩] } := by
    have hspot : System.spotOf { s with calls := s.calls ++ [⟨call, .loading ⟨none, false⟩ none⟩] }
        s.calls.length = none := by simp [spotOf, Stage.spot]
    rw [Seen, ← hspot, Function.update_eq_self] at hgrown
    exact hgrown
  cases call with
  | tableNames => exact hplain
  | schema table => exact hplain
  | execute statement => exact hgrown.beginStatement hp

/-! ## The store -/

/-- A call that goes on to another stage and stays where it is. -/
theorem Orderly.setStage (h : s.Orderly) {number : Nat} {activity : Activity} {stage : Stage}
    (ha : s.calls[number]? = some activity) (hs : stage.spot = activity.stage.spot) :
    (s.setStage number stage).Orderly := by
  refine (h.see number).putAt (congrArg (Option.map (·.call)) ha) ?_
  rw [spotOf, ha, hs]
  rfl

/-- A read takes place. -/
theorem Orderly.readHappens (h : s.Orderly) {number : Nat} {failure : Option StorageError}
    (hm : s.readHappens number failure = some t) : t.Orderly := by
  unfold System.readHappens at hm
  obtain ⟨⟨call, stage⟩, ha, hm⟩ := Option.bind_eq_some_iff.mp hm
  simp only at hm
  split at hm
  next =>
    cases hm
    exact h.setStage ha rfl
  next locks =>
    cases hm
    exact h.setStage ha rfl
  next => cases hm

/-- Whatever somebody stores, the guards stay as they are. -/
theorem Orderly.store (h : s.Orderly) (document : Document) :
    System.Orderly { s with stored := document } :=
  Guarded.congr h rfl rfl

/-- A write takes place. -/
theorem Orderly.writeHappens (h : s.Orderly) {number : Nat} {failure : Option StorageError}
    (hm : s.writeHappens number failure = some t) : t.Orderly := by
  unfold System.writeHappens at hm
  obtain ⟨⟨call, stage⟩, ha, hm⟩ := Option.bind_eq_some_iff.mp hm
  simp only at hm
  split at hm
  next locks document rows =>
    cases failure with
    | none =>
      cases hm
      exact (h.store document).setStage ha rfl
    | some e =>
      cases hm
      exact h.setStage ha rfl
  next => cases hm

/-! ## Going on -/

/-- A call gives its locks back and stands nowhere after that. -/
theorem Seen.leave {locks : Locks}
    (h : s.Seen hand ((locks.guard.map Spot.inside).map fun spot => (call, spot)))
    (hp : (s.calls[hand]?).map (·.call) = some call) {stage : Stage} (hs : stage.spot = none) :
    ((s.unlock hand locks).setStage hand stage).Orderly := by
  rw [← calls_unlock s hand locks] at hp
  refine h.unlock.putAt hp ?_
  rw [hs]
  rfl

/-- A call returns and gives its locks back. -/
theorem Seen.finish {locks : Locks}
    (h : s.Seen hand ((locks.guard.map Spot.inside).map fun spot => (call, spot)))
    (hp : (s.calls[hand]?).map (·.call) = some call) (result : Except Error Reply) :
    (s.finish hand locks result).Orderly :=
  h.leave hp rfl

/-- A statement that has looked its table up goes on. -/
theorem Seen.afterFinding {statement : Statement} (h : s.Seen hand none)
    (hp : (s.calls[hand]?).map (·.call) = some (.execute statement))
    (answer : Except StorageError Document) :
    (s.afterFinding hand statement answer).Orderly := by
  cases answer with
  | error e => exact h.putAt hp rfl
  | ok document =>
    unfold System.afterFinding
    simp only
    split
    · obtain ⟨number, hg⟩ := exists_guardOf?_register s statement.table
      have hregistered : (s.register statement.table).Seen hand none := h.register statement.table
      rw [← calls_register s statement.table] at hp
      simp only [hg]
      exact hregistered.askGuard (mem_known_of_guardOf? hg) hp
    · exact h.putAt hp rfl

/-- A call that has read the document goes on. -/
theorem Seen.afterLoading {locks : Locks}
    (h : s.Seen hand ((locks.guard.map Spot.inside).map fun spot => (call, spot)))
    (hp : (s.calls[hand]?).map (·.call) = some call) (answer : Except StorageError Document) :
    (s.afterLoading hand call locks answer).Orderly := by
  cases answer with
  | error e => exact h.finish hp _
  | ok document =>
    cases call with
    | tableNames => exact h.finish hp _
    | schema table => exact h.finish hp _
    | execute statement =>
      simp only [System.afterLoading]
      split
      · exact h.finish hp _
      · split
        · exact h.finish hp _
        · exact h.putAt hp rfl

/-- A call that has written the changed document goes on. -/
theorem Seen.afterStoring {locks : Locks}
    (h : s.Seen hand ((locks.guard.map Spot.inside).map fun spot => (call, spot)))
    (hp : (s.calls[hand]?).map (·.call) = some call) (rows : List Row)
    (answer : Except StorageError Unit) :
    (s.afterStoring hand call locks rows answer).Orderly := by
  cases answer with
  | error e => exact h.finish hp _
  | ok =>
    simp only [System.afterStoring]
    split
    next c =>
      have hregistered : (s.register c.table).Seen hand _ := h.register c.table
      rw [← calls_register s c.table] at hp
      exact hregistered.finish hp _
    next d =>
      obtain ⟨guard, commit⟩ := locks
      cases guard with
      | none => exact h.finish hp _
      | some number =>
        have hleft : ((s.retire d.table number).unlock hand ⟨some number, commit⟩).Seen hand none :=
          Seen.retire h rfl commit
        have hcalls := calls_unlock (s.retire d.table number) hand ⟨some number, commit⟩
        have hsame : (s.retire d.table number).calls = s.calls := rfl
        rw [← hsame, ← hcalls] at hp
        exact hleft.putAt hp rfl
    next => exact h.finish hp _

/-- A call goes on. -/
theorem Orderly.resume (h : s.Orderly) {number : Nat} (hm : s.resume number = some t) :
    t.Orderly := by
  unfold System.resume at hm
  obtain ⟨⟨call, stage⟩, ha, hm⟩ := Option.bind_eq_some_iff.mp hm
  have hseen := h.see number
  rw [spotOf, ha] at hseen
  have hp : (s.calls[number]?).map (·.call) = some call := congrArg (Option.map (·.call)) ha
  simp only at hm
  split at hm
  next statement answer =>
    cases hm
    exact Seen.afterFinding hseen hp answer
  next statement guard =>
    obtain ⟨progress, hprogress, hm⟩ := Option.bind_eq_some_iff.mp hm
    cases hm
    exact (Seen.poll hseen hprogress).afterGuard hp
  next guard =>
    -- The commit lock is none of the guards.
    have hasked : ({ s with commit := (s.commit.poll number).1 } : System).Seen number
        ((guard.map Spot.inside).map fun spot => (call, spot)) := Seen.congr hseen rfl rfl rfl
    split at hm
    next =>
      cases hm
      exact hasked.putAt hp rfl
    next =>
      cases hm
      exact Guarded.congr h rfl rfl
  next locks answer =>
    cases hm
    exact Seen.afterLoading hseen hp answer
  next locks document rows answer =>
    cases hm
    exact Seen.afterStoring hseen hp rows answer
  next => cases hm

/-! ## Ending from outside -/

/-- A statement has waited too long for its guard. -/
theorem Orderly.expire (h : s.Orderly) {number : Nat} (hm : s.expire number = some t) :
    t.Orderly := by
  unfold System.expire at hm
  obtain ⟨⟨call, stage⟩, ha, hm⟩ := Option.bind_eq_some_iff.mp hm
  obtain ⟨timeout, _, hm⟩ := Option.bind_eq_some_iff.mp hm
  have hseen := h.see number
  rw [spotOf, ha] at hseen
  simp only at hm
  split at hm
  next statement guard =>
    cases hm
    exact (Seen.cancel hseen).putAt (congrArg (Option.map (·.call)) ha) rfl
  next => cases hm

/-- A call is given up. -/
theorem Orderly.abort (h : s.Orderly) {number : Nat} (hm : s.abort number = some t) :
    t.Orderly := by
  unfold System.abort at hm
  obtain ⟨⟨call, stage⟩, ha, hm⟩ := Option.bind_eq_some_iff.mp hm
  have hseen := h.see number
  rw [spotOf, ha] at hseen
  have hp : (s.calls[number]?).map (·.call) = some call := congrArg (Option.map (·.call)) ha
  simp only at hm
  cases stage with
  | finding answer =>
    cases hm
    exact Seen.putAt hseen hp rfl
  | queued guard =>
    cases hm
    exact (Seen.cancel hseen).putAt hp rfl
  | committing guard =>
    cases hm
    have hleft : ({ s with commit := s.commit.cancel number } : System).Seen number
        ((guard.map Spot.inside).map fun spot => (call, spot)) := Seen.congr hseen rfl rfl rfl
    have hlocks : Locks.guard ⟨guard, false⟩ = guard := rfl
    rw [← hlocks] at hleft
    exact hleft.leave hp rfl
  | loading locks answer =>
    cases hm
    exact Seen.leave hseen hp rfl
  | storing locks document rows answer =>
    cases hm
    exact Seen.leave hseen hp rfl
  | finished result => cases hm
  | aborted => cases hm

/-! ## Every system that is reached -/

/-- A system with no calls is orderly. -/
theorem orderly_ofDocument (config : Config) (document : Document) {known : List String}
    (hn : known.Nodup) : (ofDocument config document known).Orderly := by
  have hnew := guardAt_ofDocument config document known
  have hopen := closedAt_ofDocument config document known
  constructor
  · constructor
    · intro number
      rw [hnew]
      exact Guard.exclusive_new
    · intro number r hr
      rw [hnew] at hr
      cases hr
    · intro number hold hm
      rw [hnew] at hm
      cases hm
    · intro client number call hi
      cases hi
  · intro number
    rw [hnew, hopen]
    exact Guard.closes_new
  · intro client number statement hi
    cases hi
  · intro client number call hb
    cases hb
  · rw [ofDocument, List.zipIdx_map_fst]
    exact hn
  · rw [ofDocument, List.zipIdx_map_snd]
    exact List.nodup_range'
  · intro entry he
    have hentry := List.mem_zipIdx_iff_getElem?.mp he
    have hl : entry.2 < known.length := (List.getElem?_eq_some_iff.mp hentry).1
    exact ⟨(List.length_map _).symm ▸ hl, hopen entry.2⟩

/-- Every move leaves an orderly system. -/
theorem Orderly.move (h : s.Orderly) {move : Move} (hm : s.move move = some t) : t.Orderly := by
  cases move with
  | begin call =>
    cases hm
    exact h.begin call
  | read number failure => exact h.readHappens hm
  | write number failure => exact h.writeHappens hm
  | resume number => exact h.resume hm
  | expire number => exact h.expire hm
  | abort number => exact h.abort hm

/-- The systems that are reached from a handle on a store that others use too. -/
inductive Reached (config : Config) : System → Prop where
  /-- The handle is opened and knows some of the tables, or tables that are gone. -/
  | opened (document : Document) {known : List String} (h : known.Nodup) :
    Reached config (ofDocument config document known)
  /-- The system makes a move. -/
  | move {s t : System} {move : Move} (h : Reached config s) (hm : s.move move = some t) :
    Reached config t
  /-- Somebody else stores a document. -/
  | stored {s : System} (h : Reached config s) (document : Document) :
    Reached config { s with stored := document }

/-- What a run leads to from a system that is reached is reached. -/
theorem Reached.run {config : Config} (h : Reached config s) {moves : List Move}
    (hr : s.run moves = some t) : Reached config t := by
  induction moves generalizing s with
  | nil =>
    cases hr
    exact h
  | cons move rest ih =>
    obtain ⟨u, hm, hrest⟩ := Option.bind_eq_some_iff.mp hr
    exact ih (h.move hm) hrest

/-- In a system that is reached the guards and the known tables agree with where the calls
stand. -/
theorem Reached.orderly {config : Config} (h : Reached config s) : s.Orderly := by
  induction h with
  | opened document hn => exact orderly_ofDocument config document hn
  | move _ hm ih => exact ih.move hm
  | stored _ document ih => exact ih.store document

/-- Only selections read rows and change nothing. -/
theorem select_of_accessOf {statement : Statement} (h : accessOf statement = .read) :
    ∃ select, statement = .select select := by
  cases statement with
  | select select => exact ⟨select, rfl⟩
  | insert insert => cases h
  | update update => cases h
  | delete delete => cases h
  | create create => cases h
  | drop drop => cases h

/-- Whatever calls are under way on a handle, and however they go on, fail,
expire and are given up: statements that have access to one table have it under
one open guard, and two of them are both selections. -/
theorem Reached.shared_access {config : Config} (h : Reached config s) {first second : Nat}
    {statement other : Statement} {guard guard' : Nat}
    (hf : s.HasAccess first statement guard) (hs : s.HasAccess second other guard')
    (ht : statement.table = other.table) :
    guard = guard' ∧ s.closedAt guard = false ∧
      (first ≠ second →
        (∃ select, statement = .select select) ∧ ∃ select, other = .select select) := by
  obtain ⟨rfl, hopen⟩ := h.orderly.guard_eq hf hs ht
  refine ⟨rfl, hopen, fun hne => ?_⟩
  obtain ⟨hfirst, hsecond⟩ := h.orderly.accessOf_eq hf hs hne
  exact ⟨select_of_accessOf hfirst, select_of_accessOf hsecond⟩

/-- A table that the handle does not know is dropped and made again. Of two
selections that have access to the new table, the second one came in when an
insertion between them had waited too long. -/
theorem Reached.shared_access_of_drop :
    let document : Document := ⟨[("t", .ofSchema [⟨"a", .text⟩])], List.pairwise_singleton _ _⟩
    let start : System := { ofDocument ⟨some ⟨1⟩⟩ .empty [] with stored := document }
    let select : Statement := .select ⟨"t", .all, []⟩
    let moves : List Move :=
      [.begin (.execute select), .begin (.execute (.drop ⟨"t", false⟩)), .read 0 none,
        .read 1 none, .resume 0, .resume 1, .abort 0, .resume 1, .read 1 none, .resume 1,
        .write 1 none, .resume 1,
        .begin (.execute (.create ⟨"t", false, [⟨"a", .text⟩]⟩)), .read 2 none, .resume 2,
        .write 2 none, .resume 2,
        .begin (.execute select), .begin (.execute (.insert ⟨"t", .all, [[.text "x"]], .all⟩)),
        .begin (.execute select), .expire 4, .resume 5]
    ∃ s, start.run moves = some s ∧ s.HasAccess 3 select 1 ∧ s.HasAccess 5 select 1 ∧
      s.closedAt 1 = false ∧ ∃ other, select = .select other := by
  intro document start select moves
  have hspots : (start.run moves).map (fun s => (s.spotOf 3, s.spotOf 5)) =
      some (some (.execute select, .inside 1), some (.execute select, .inside 1)) := by
    decide +kernel
  obtain ⟨s, hr, hs⟩ := Option.map_eq_some_iff.mp hspots
  have hopened : Reached ⟨some ⟨1⟩⟩ start := .stored (.opened .empty List.nodup_nil) document
  have hf : s.HasAccess 3 select 1 := congrArg Prod.fst hs
  have hb : s.HasAccess 5 select 1 := congrArg Prod.snd hs
  have hshared := Reached.shared_access (hopened.run hr) hf hb rfl
  exact ⟨s, hr, hf, hb, hshared.2.1, (hshared.2.2 (by decide)).1⟩

end EmbeddedSql.Session.System
