import EmbeddedSql.Proofs.Session.Known

/-!
# Nothing outlives the removal of a table

A statement that removes a table stores the document without it, forgets the guard and
closes it before anybody else gets the commit lock. Whoever waits for the table then
waits for the closed guard, which lets nobody in, also if the table is made again at
once: the new table has another guard. So such a statement neither reads nor writes. It
misses its table, unless it has waited too long or is given up.
-/

namespace EmbeddedSql.Session

open Sql Lock

/-- A statement whose table is gone fails, or returns no rows if it takes a missing table
for no error. -/
theorem missing_eq (statement : Statement) :
    missing statement =
      if statement.mayMiss then .ok (.rows [])
      else .error (.catalog (.tableNotFound statement.table)) := by
  simp only [missing, System.resultOf, Statement.excuse]
  split
  · rfl
  · rfl

/-- How a statement ends that was waiting for its table when the table was removed. -/
inductive Stage.Misses (statement : Statement) (number : Nat) (moves : List Move) :
    Stage → Prop where
  /-- It has missed the table. -/
  | missed : Misses statement number moves
      (.finished (if statement.mayMiss then .ok (.rows [])
        else .error (.catalog (.tableNotFound statement.table))))
  /-- Its time was up first. -/
  | late (timeout : Duration) (h : .expire number ∈ moves) :
    Misses statement number moves
      (.finished (.error (.catalog (.lockTimeout statement.table timeout))))
  /-- It was given up first. -/
  | abandoned (h : .abort number ∈ moves) : Misses statement number moves .aborted

/-- A statement that misses its table has ended. -/
theorem Stage.Misses.ended {statement : Statement} {number : Nat} {moves : List Move}
    {stage : Stage} (h : stage.Misses statement number moves) : stage.Ended := by
  cases h with
  | missed => exact .finished _
  | late timeout h => exact .finished _
  | abandoned h => exact .aborted

/-- A statement that misses its table by some moves misses it by more of them. -/
theorem Stage.Misses.mono {statement : Statement} {number : Nat} {moves more : List Move}
    {stage : Stage} (h : stage.Misses statement number moves) (hm : moves ⊆ more) :
    stage.Misses statement number more := by
  cases h with
  | missed => exact .missed
  | late timeout h => exact .late timeout (hm h)
  | abandoned h => exact .abandoned (hm h)

namespace System

variable {s t u : System} {config : Config} {hand : Nat} {statement : Statement} {guard : Nat}

/-! ## The guard of a removed table -/

/-- A statement that has removed its table leaves the guard closed. -/
theorem closedAt_afterStoring (s : System) (hand : Nat) (drop : Drop) (commit : Bool)
    (rows : List Row) (hl : guard < s.guards.length) :
    (s.afterStoring hand (.execute (.drop drop)) ⟨some guard, commit⟩ rows (.ok ())).closedAt
      guard = true := by
  have hretired : (s.retire drop.table guard).guardAt guard = (s.guardAt guard).close := by
    rw [System.retire, guardAt_setGuard, if_pos ⟨rfl, hl⟩]
    rfl
  have hunlocked := (handles_unlock (s.retire drop.table guard) hand
    ⟨some guard, commit⟩).guards guard
  rw [hretired] at hunlocked
  exact (hunlocked.closes (Guard.closes_close _)).entry

/-- When a statement has removed a table, every other statement that waits for the table
waits for a closed guard. -/
theorem Reached.closedAt_of_drops (h : Reached config s) {move : Move}
    (hd : s.Drops statement.table move) (hm : s.move move = some t)
    (hw : s.calls[hand]? = some ⟨.execute statement, .queued guard⟩) :
    t.closedAt guard = true := by
  obtain ⟨number, drop, locks, document, rows, rfl, htable, hs⟩ := hd.exists_drop
  have hspot : s.spotOf hand = some (.execute statement, .before guard) := by
    rw [spotOf, hw]
    rfl
  obtain ⟨_, hcall, hwaits⟩ := h.orderly.before hspot
  cases hcall
  rcases hwaits with hclosed | hknown
  · exact (h.turn hm).closedAt h.orderly hclosed
  · -- The removed table is known by the guard at which both statements stand.
    obtain ⟨guard', hguard, hdropped⟩ := h.guard_of_storing hs trivial
    have hentry := List.inj_on_of_nodup_map h.orderly.tables hknown hdropped htable.symm
    obtain rfl : guard = guard' := congrArg Prod.snd hentry
    obtain ⟨held, commit⟩ := locks
    obtain rfl : held = some guard := hguard
    have hresumed : s.resume number = some (s.afterStoring number (.execute (.drop drop))
        ⟨some guard, commit⟩ rows (.ok ())) := by
      simp [System.resume, hs]
    rw [System.move, hresumed] at hm
    cases hm
    exact closedAt_afterStoring s number drop commit rows (h.orderly.opened hknown).1

/-! ## Waiting for a closed guard -/

/-- A statement that waits for a closed guard misses its table when it looks. -/
theorem move_of_closed {move : Move} (hm : s.move move = some t)
    (ha : s.calls[hand]? = some ⟨.execute statement, .queued guard⟩)
    (hc : (s.guardAt guard).Closes true) (hcaller : hand = move.caller s) :
    ∃ stage, t.calls[hand]? = some ⟨.execute statement, stage⟩ ∧
      stage.Misses statement hand [move] := by
  have hp : (s.calls[hand]?).map (·.call) = some (.execute statement) :=
    congrArg (Option.map (·.call)) ha
  rcases move_of_queued hm ha hcaller with ⟨progress, hprogress, _, rfl⟩ | ⟨timeout, rfl, ht⟩ |
    ⟨rfl, ht⟩
  · rw [Guard.poll_of_closed hc hprogress]
    have hgone := getElem?_setStage_self (s := s.setGuard guard ((s.guardAt guard).poll hand).1) hp
      (.finished (missing statement))
    refine ⟨_, hgone, ?_⟩
    rw [missing_eq]
    exact .missed
  · exact ⟨_, ht, .late timeout (List.mem_singleton_self _)⟩
  · exact ⟨_, ht, .abandoned (List.mem_singleton_self _)⟩

/-- A statement that waits for a closed guard neither reads nor writes, and it can do
nothing but miss its table. -/
theorem Reached.misses_of_closed (h : Reached config s) {moves : List Move}
    (ha : s.calls[hand]? = some ⟨.execute statement, .queued guard⟩)
    (hc : s.closedAt guard = true) (hr : s.run moves = some t) :
    (∀ move ∈ moves, ¬ Touches hand move) ∧
      ∃ stage, t.calls[hand]? = some ⟨.execute statement, stage⟩ ∧
        (stage.Misses statement hand moves ∨ stage = .queued guard ∧
          ∃ u, t.move (.resume hand) = some u ∧
            u.calls[hand]? = some ⟨.execute statement, .finished
              (if statement.mayMiss then .ok (.rows [])
                else .error (.catalog (.tableNotFound statement.table)))⟩) := by
  have hcloses := h.orderly.closes guard
  rw [hc] at hcloses
  induction moves generalizing s with
  | nil =>
    cases hr
    have hlooks := exists_resume_of_closed ha hcloses (h.lined.stands ha)
    rw [missing_eq] at hlooks
    exact ⟨nofun, _, ha, .inr ⟨rfl, hlooks⟩⟩
  | cons move rest ih =>
    obtain ⟨next, hm, hrest⟩ := Option.bind_eq_some_iff.mp hr
    have hnext := (h.turn hm).closedAt h.orderly hc
    have hfirst := not_touches_of_queued hm ha
    by_cases hcaller : hand = move.caller s
    · obtain ⟨stage, hstage, hmisses⟩ := move_of_closed hm ha hcloses hcaller
      have hlater := not_touches_of_ended hrest hstage hmisses.ended
      have hstays := (run_of_ended hrest hstage hmisses.ended).1
      refine ⟨List.forall_mem_cons.mpr ⟨hfirst, hlater⟩, stage, hstays, .inl ?_⟩
      exact hmisses.mono (List.cons_subset.mpr ⟨List.mem_cons_self, List.nil_subset _⟩)
    · have hthere := (others_move hm hcaller).trans ha
      have hnextCloses := (h.move hm).orderly.closes guard
      rw [hnext] at hnextCloses
      obtain ⟨htouches, stage, hstage, hends⟩ := ih (h.move hm) hthere hnext hrest hnextCloses
      refine ⟨List.forall_mem_cons.mpr ⟨hfirst, htouches⟩, stage, hstage, ?_⟩
      exact hends.imp_left fun hmisses => hmisses.mono (List.subset_cons_self move rest)

/-! ## Statements behind a removal -/

/-- Whatever calls are under way on a handle: when a statement ends that has removed a
table, every statement that waits for the table ends without a read and without a
write, whatever happens then, also if the table is made again. It misses the table as
soon as it looks, unless its time is up or it is given up before. -/
theorem Reached.misses_of_drops (h : Reached config s) {move : Move} {moves : List Move}
    (hd : s.Drops statement.table move)
    (hw : s.calls[hand]? = some ⟨.execute statement, .queued guard⟩)
    (hr : s.run (move :: moves) = some t) :
    (∀ other ∈ move :: moves, ¬ Touches hand other) ∧
      ∃ stage, t.calls[hand]? = some ⟨.execute statement, stage⟩ ∧
        (stage.Misses statement hand moves ∨ stage = .queued guard ∧
          ∃ u, t.move (.resume hand) = some u ∧
            u.calls[hand]? = some ⟨.execute statement, .finished
              (if statement.mayMiss then .ok (.rows [])
                else .error (.catalog (.tableNotFound statement.table)))⟩) := by
  obtain ⟨next, hm, hrest⟩ := Option.bind_eq_some_iff.mp hr
  have hclosed := h.closedAt_of_drops hd hm hw
  have hne : hand ≠ move.caller s := by
    obtain ⟨number, drop, locks, document, rows, rfl, _, hs⟩ := hd.exists_drop
    intro he
    have he : hand = number := he
    rw [he, hs] at hw
    cases hw
  have hthere := (others_move hm hne).trans hw
  obtain ⟨htouches, hends⟩ := (h.move hm).misses_of_closed hthere hclosed hrest
  exact ⟨List.forall_mem_cons.mpr ⟨not_touches_of_queued hm hw, htouches⟩, hends⟩

/-- While a table is removed, an insertion and a second removal wait for it, and the table
is about to be made again. The new table is there and is selected from when the second
removal looks, which finds no table to remove. -/
theorem Reached.misses_of_drops_of_create :
    let document : Document := ⟨[("t", .ofSchema [⟨"a", .text⟩])], List.pairwise_singleton _ _⟩
    let drop : Statement := .drop ⟨"t", true⟩
    let front : List Move :=
      [.begin (.execute (.drop ⟨"t", false⟩)),
        .begin (.execute (.insert ⟨"t", .all, [[.text "x"]], .all⟩)), .begin (.execute drop),
        .begin (.execute (.create ⟨"t", false, [⟨"b", .text⟩]⟩)), .read 0 none, .resume 0,
        .write 0 none]
    let back : List Move :=
      [.resume 3, .read 3 none, .resume 3, .write 3 none, .resume 3,
        .begin (.execute (.select ⟨"t", .all, []⟩)), .read 4 none, .resume 2, .expire 1]
    ∃ s t, (ofDocument ⟨some ⟨1⟩⟩ document ["t"]).run front = some s ∧
      s.Drops "t" (.resume 0) ∧ s.calls[2]? = some ⟨.execute drop, .queued 0⟩ ∧
      s.run (.resume 0 :: back) = some t ∧ t.stored.contains "t" = true ∧
      (∀ move ∈ .resume 0 :: back, ¬ Touches 2 move) ∧
      ∃ stage, t.calls[2]? = some ⟨.execute drop, stage⟩ ∧
        (stage.Misses drop 2 back ∨ stage = .queued 0 ∧ ∃ u, t.move (.resume 2) = some u ∧
          u.calls[2]? = some ⟨.execute drop, .finished (.ok (.rows []))⟩) := by
  intro document drop front back
  let start : System := ofDocument ⟨some ⟨1⟩⟩ document ["t"]
  have hfront : (start.run front).map (fun s => (s.removed? 0, s.spotOf 2)) =
      some (some "t", some (.execute drop, .before 0)) := by
    decide +kernel
  have hback : ((start.run front).bind fun s => s.run (.resume 0 :: back)).map
      (·.stored.contains "t") = some true := by
    decide +kernel
  obtain ⟨s, hr, hs⟩ := Option.map_eq_some_iff.mp hfront
  rw [hr, Option.bind_some] at hback
  obtain ⟨t, ht, hcontains⟩ := Option.map_eq_some_iff.mp hback
  have hreached : Reached ⟨some ⟨1⟩⟩ s :=
    (Reached.opened document (List.nodup_singleton "t")).run hr
  have hdrops : s.Drops drop.table (.resume 0) := congrArg Prod.fst hs
  have hwaits := queued_of_spotOf (congrArg Prod.snd hs)
  exact ⟨s, t, hr, hdrops, hwaits, ht, hcontains,
    Reached.misses_of_drops hreached hdrops hwaits ht⟩

end System

end EmbeddedSql.Session
