import EmbeddedSql.Proofs.Session.Known
import EmbeddedSql.Proofs.Session.Reading
import EmbeddedSql.Proofs.Session.Tables

/-!
# Statements on one table in the order of their arrival

Of two statements on one table that ask for its guard one after the other, the second is
let in only when the first has been, and if one of them writes, only when the first has
left. So the second reads the document when the first has ended, and what the first has
come to is in the document that it reads.
-/

namespace EmbeddedSql.Session

open Sql Lock

namespace System

variable {s t u : System} {config : Config} {first second guard : Nat}
  {statement other : Statement} {stage stage' : Stage}

/-! ## One behind the other -/

/-- How two statements stand of which the second has asked for a guard after the first. -/
inductive Behind (s : System) (guard first second : Nat) : Stage → Stage → Prop where
  /-- Both wait, the second behind the first. -/
  | waits (h : [first, second].Sublist (s.guardAt guard).line) :
    Behind s guard first second (.queued guard) (.queued guard)
  /-- The first has heard from the guard. -/
  | passed {stage stage' : Stage} (h : stage.Past guard) (h' : stage'.Bound guard) :
    Behind s guard first second stage stage'
  /-- The second has ended without having been let in before the first. -/
  | ended {stage stage' : Stage} (h : stage.Bound guard) (h' : stage'.Ended) :
    Behind s guard first second stage stage'

/-- Looking at a request that has to wait on leaves the line as it is. -/
theorem line_of_stays (h : s.Orderly) {number : Nat} {call : Call}
    (ha : s.calls[number]? = some ⟨call, .queued guard⟩) {progress : Progress}
    (hp : ((s.guardAt guard).poll number).2 = some progress) (hs : progress.stays = true) :
    ((s.setGuard guard ((s.guardAt guard).poll number).1).guardAt guard).line =
      (s.guardAt guard).line := by
  have hseen := h.see number
  rw [spotOf, ha] at hseen
  have hline := Guard.line_poll hp
  rw [hs, cond_true] at hline
  rw [guardAt_setGuard, if_pos ⟨rfl, (Seen.waits hseen).1⟩, hline]

/-- The guards stay as they are when a statement goes on waiting. -/
theorem guardAt_afterGuard_waiting (s : System) (hand : Nat) (statement : Statement)
    (guard : Nat) (reached : Lock.Stage) (number : Nat) :
    (s.afterGuard hand statement guard (.waiting reached)).guardAt number = s.guardAt number :=
  rfl

/-- The first of two that wait is let in, waits on in front of the second, or ends. -/
theorem Reached.behind_of_first (h : Reached config s) {move : Move} (hm : s.move move = some t)
    (hf : s.calls[first]? = some ⟨.execute statement, .queued guard⟩)
    (hs : s.calls[second]? = some ⟨.execute other, .queued guard⟩)
    (hl : [first, second].Sublist (s.guardAt guard).line) (hne : second ≠ first)
    (hc : first = move.caller s) :
    ∃ stage stage', t.calls[first]? = some ⟨.execute statement, stage⟩ ∧
      t.calls[second]? = some ⟨.execute other, stage'⟩ ∧
      t.Behind guard first second stage stage' := by
  have hp : (s.calls[first]?).map (·.call) = some (.execute statement) :=
    congrArg (Option.map (·.call)) hf
  have hthere : t.calls[second]? = some ⟨.execute other, .queued guard⟩ :=
    (others_move hm (hc ▸ hne)).trans hs
  rcases move_of_queued hm hf hc with ⟨progress, hprogress, _, rfl⟩ | ⟨timeout, _, ht⟩ | ⟨_, ht⟩
  · let looked := s.setGuard guard ((s.guardAt guard).poll first).1
    obtain ⟨stage, hstage, hcame⟩ :=
      exists_afterGuard (s := looked) hp statement guard progress
    refine ⟨stage, _, hstage, hthere, ?_⟩
    cases progress with
    | granted => exact .passed (.inside hcame) .queued
    | failed =>
      rw [hcame]
      exact .passed (.ended (.finished _)) .queued
    | waiting reached =>
      rw [hcame]
      refine .waits ?_
      rw [guardAt_afterGuard_waiting, line_of_stays h.orderly hf hprogress rfl]
      exact hl
  · exact ⟨_, _, ht, hthere, .passed (.ended (.finished _)) .queued⟩
  · exact ⟨_, _, ht, hthere, .passed (.ended .aborted) .queued⟩

/-- The second of two that wait is not let in: it waits on behind the first, or ends. -/
theorem Reached.behind_of_second (h : Reached config s) {move : Move} (hm : s.move move = some t)
    (hf : s.calls[first]? = some ⟨.execute statement, .queued guard⟩)
    (hs : s.calls[second]? = some ⟨.execute other, .queued guard⟩)
    (hl : [first, second].Sublist (s.guardAt guard).line) (hne : second ≠ first)
    (hc : second = move.caller s) :
    ∃ stage stage', t.calls[first]? = some ⟨.execute statement, stage⟩ ∧
      t.calls[second]? = some ⟨.execute other, stage'⟩ ∧
      t.Behind guard first second stage stage' := by
  have hp : (s.calls[second]?).map (·.call) = some (.execute other) :=
    congrArg (Option.map (·.call)) hs
  have hthere : t.calls[first]? = some ⟨.execute statement, .queued guard⟩ :=
    (others_move hm (hc ▸ hne.symm)).trans hf
  rcases move_of_queued hm hs hc with ⟨progress, hprogress, _, rfl⟩ | ⟨timeout, _, ht⟩ | ⟨_, ht⟩
  · let looked := s.setGuard guard ((s.guardAt guard).poll second).1
    obtain ⟨stage, hstage, hcame⟩ := exists_afterGuard (s := looked) hp other guard progress
    refine ⟨_, stage, hthere, hstage, ?_⟩
    cases progress with
    | failed =>
      rw [hcame]
      exact .ended .queued (.finished _)
    | waiting reached =>
      rw [hcame]
      refine .waits ?_
      rw [guardAt_afterGuard_waiting, line_of_stays h.orderly hs hprogress rfl]
      exact hl
    | granted =>
      -- Only the first of the line is let in, and somebody stands in front of the second.
      have hcloses := h.orderly.closes guard
      have hopen : s.closedAt guard = false := by
        rw [Bool.eq_false_iff]
        intro hclosed
        rw [hclosed] at hcloses
        cases Guard.poll_of_closed hcloses hprogress
      have hconserves := h.conserves.guards guard
      have hlined := h.lined.guards hopen
      obtain ⟨rest, hline⟩ := hlined.line_of_poll_granted hconserves hprogress
      have hdistinct : (s.guardAt guard).line.Nodup := hconserves.distinct
      rw [hline] at hl hdistinct
      rcases List.sublist_cons_iff.mp hl with hrest | ⟨tail, htail, _⟩
      · have hm := hrest.subset (List.mem_cons_of_mem first (List.mem_singleton_self second))
        exact absurd hm (List.nodup_cons.mp hdistinct).1
      · exact absurd (List.cons.inj htail).1.symm hne
  · exact ⟨_, _, hthere, ht, .ended .queued (.finished _)⟩
  · exact ⟨_, _, hthere, ht, .ended .queued .aborted⟩

/-- The second of two statements stays behind the first. -/
theorem Reached.behind_move (h : Reached config s) {move : Move} (hm : s.move move = some t)
    (hf : s.calls[first]? = some ⟨.execute statement, stage⟩)
    (hs : s.calls[second]? = some ⟨.execute other, stage'⟩) (hne : second ≠ first)
    (hb : s.Behind guard first second stage stage') :
    ∃ stage stage', t.calls[first]? = some ⟨.execute statement, stage⟩ ∧
      t.calls[second]? = some ⟨.execute other, stage'⟩ ∧
      t.Behind guard first second stage stage' := by
  cases hb with
  | waits hl =>
    by_cases hfirst : first = move.caller s
    · exact h.behind_of_first hm hf hs hl hne hfirst
    · by_cases hsecond : second = move.caller s
      · exact h.behind_of_second hm hf hs hl hne hsecond
      · have hline := ((h.turn hm).guards guard).sublist_line hfirst hsecond hl
        exact ⟨_, _, (others_move hm hfirst).trans hf, (others_move hm hsecond).trans hs,
          .waits hline⟩
  | passed hpast hbound =>
    obtain ⟨x, hx, hpast⟩ := past_move hm hf hpast
    obtain ⟨y, hy, hbound⟩ := bound_move hm hs hbound
    exact ⟨x, y, hx, hy, .passed hpast hbound⟩
  | ended hbound hended =>
    obtain ⟨x, hx, hbound⟩ := bound_move hm hf hbound
    have hkept := (others_move hm (ne_caller_of_ended hm hs hended)).trans hs
    exact ⟨x, _, hx, hkept, .ended hbound hended⟩

/-- Whatever moves follow, two statements stand one behind the other still. -/
theorem Reached.behind_run (h : Reached config s) {moves : List Move} (hr : s.run moves = some t)
    (hf : s.calls[first]? = some ⟨.execute statement, stage⟩)
    (hs : s.calls[second]? = some ⟨.execute other, stage'⟩) (hne : second ≠ first)
    (hb : s.Behind guard first second stage stage') :
    ∃ stage stage', t.calls[first]? = some ⟨.execute statement, stage⟩ ∧
      t.calls[second]? = some ⟨.execute other, stage'⟩ ∧
      t.Behind guard first second stage stage' := by
  induction moves generalizing s stage stage' with
  | nil =>
    cases hr
    exact ⟨stage, stage', hf, hs, hb⟩
  | cons move rest ih =>
    obtain ⟨next, hm, hrest⟩ := Option.bind_eq_some_iff.mp hr
    obtain ⟨x, y, hx, hy, hnext⟩ := h.behind_move hm hf hs hne hb
    exact ih (h.move hm) hrest hx hy hnext

/-! ## Asking after another statement -/

/-- The moves by which a statement asks for a guard that is known for its table: it
begins, or it goes on after it has looked its table up. -/
inductive Asks (s : System) : Move → Nat → Statement → Nat → Prop where
  /-- It begins. -/
  | begins {statement : Statement} {guard : Nat} (ha : statement.AsksGuard)
    (hg : s.guardOf? statement.table = some guard) :
    Asks s (.begin (.execute statement)) s.calls.length statement guard
  /-- It has found its table. -/
  | found {number : Nat} {statement : Statement} {document : Document} {guard : Nat}
    (hs : s.calls[number]? = some ⟨.execute statement, .finding (some (.ok document))⟩)
    (hd : document.contains statement.table = true)
    (hg : s.guardOf? statement.table = some guard) :
    Asks s (.resume number) number statement guard

section

variable {move : Move} {hand : Nat}

/-- The statement that asks for a guard is the one that moves. -/
theorem Asks.caller (h : s.Asks move hand statement guard) : move.caller s = hand := by
  cases h with
  | begins ha hg => rfl
  | found hs hd hg => rfl

/-- A statement asks for the guard by which its table is known. -/
theorem Asks.known (h : s.Asks move hand statement guard) :
    s.guardOf? statement.table = some guard := by
  cases h with
  | begins ha hg => exact hg
  | found hs hd hg => exact hg

/-- A statement that asks for a guard has not asked for it before. -/
theorem Asks.ne_of_bound (h : s.Asks move hand statement guard) {call : Call}
    (ha : s.calls[first]? = some ⟨call, stage⟩) (hb : stage.Bound guard) : hand ≠ first := by
  rintro rfl
  cases h with
  | begins _ hg =>
    have hl := (List.getElem?_eq_some_iff.mp ha).1
    exact Nat.lt_irrefl _ hl
  | found hs hd hg =>
    rw [hs] at ha
    cases ha
    cases hb with
    | past hpast =>
      cases hpast with
      | inside hin => cases hin
      | ended he => cases he

/-- The guards are as they were when the request comes to them. -/
theorem Asks.exists_askGuard (h : s.Asks move hand statement guard)
    (hm : s.move move = some t) :
    ∃ u : System, t = u.askGuard hand statement guard ∧ u.guards = s.guards ∧
      (u.calls[hand]?).map (·.call) = some (.execute statement) := by
  cases h with
  | begins ha hg =>
    cases hm
    let grown : System :=
      { s with calls := s.calls ++ [⟨.execute statement, .loading ⟨none, false⟩ none⟩] }
    have hgrown : grown.guardOf? statement.table = some guard := hg
    refine ⟨grown, ?_, rfl, by simp [grown]⟩
    cases statement with
    | create create => cases ha
    | _ => simp only [System.begin, System.beginStatement, grown, hgrown]
  | found hs hd hg =>
    refine ⟨s, ?_, rfl, congrArg (Option.map (·.call)) hs⟩
    have hregister : s.register statement.table = s := by rw [System.register, hg]
    simp only [System.move, System.resume, hs, Option.bind_eq_bind, Option.bind_some,
      System.afterFinding, hd, if_true, hregister, hg] at hm
    exact (Option.some.inj hm).symm

/-- A statement that has asked for a guard is bound to it. -/
theorem Asks.bound (h : s.Asks move hand statement guard) (hm : s.move move = some t) :
    ∃ stage, t.calls[hand]? = some ⟨.execute statement, stage⟩ ∧ stage.Bound guard := by
  obtain ⟨u, rfl, _, hp⟩ := h.exists_askGuard hm
  exact bound_askGuard hp statement guard

/-- A statement that asks for a guard stands behind another one that has asked for it. -/
theorem Reached.behind_asks (h : Reached config s) (ha : s.Asks move hand other guard)
    (hm : s.move move = some t) (hf : s.calls[first]? = some ⟨.execute statement, stage⟩)
    (hb : stage.Bound guard) :
    ∃ stage', t.calls[first]? = some ⟨.execute statement, stage⟩ ∧
      t.calls[hand]? = some ⟨.execute other, stage'⟩ ∧
      t.Behind guard first hand stage stage' := by
  have hne := ha.ne_of_bound hf hb
  have hthere := (others_move hm (ha.caller ▸ hne.symm)).trans hf
  cases hb with
  | past hpast =>
    obtain ⟨stage', hstage, hbound⟩ := ha.bound hm
    exact ⟨stage', hthere, hstage, .passed hpast hbound⟩
  | queued =>
    have hopened := h.orderly.opened (mem_known_of_guardOf? ha.known)
    have hcloses := h.orderly.closes guard
    rw [hopened.2] at hcloses
    have hlined := h.lined.guards hopened.2
    have hline := Guard.line_request (s.guardAt guard) hand (accessOf other)
    have hstands : first ∈ (s.guardAt guard).line := h.lined.stands hf
    obtain ⟨u, rfl, hguards, hp⟩ := ha.exists_askGuard hm
    have hguard : u.guardAt guard = s.guardAt guard := by rw [guardAt, hguards, guardAt]
    have hl : guard < u.guards.length := hguards ▸ hopened.1
    let asked := u.setGuard guard ((u.guardAt guard).request hand (accessOf other)).1
    have hasked : (asked.calls[hand]?).map (·.call) = some (.execute other) := hp
    cases hprogress : ((s.guardAt guard).request hand (accessOf other)).2 with
    | failed => exact absurd hprogress (Guard.request_ne_failed hcloses _ _)
    | granted =>
      -- Nobody is let in at once while somebody stands in line.
      have hnobody := hlined.line_of_request_granted (h.conserves.guards guard) hprogress
      rw [hnobody] at hstands
      cases hstands
    | waiting reached =>
      obtain ⟨stage', hstage, hcame⟩ := exists_afterGuard hasked other guard (.waiting reached)
      have hwaits : u.askGuard hand other guard =
          asked.afterGuard hand other guard (.waiting reached) := by
        rw [← hprogress, ← hguard]
        rfl
      rw [hwaits] at hthere ⊢
      rw [hprogress, Progress.stays, cond_true] at hline
      refine ⟨stage', hthere, hstage, ?_⟩
      rw [hcame]
      refine .waits ?_
      rw [guardAt_afterGuard_waiting, guardAt_setGuard, if_pos ⟨rfl, hl⟩, hguard, hline]
      exact (List.singleton_sublist.mpr hstands).append (List.Sublist.refl [hand])

end

/-- No statement that has removed a table ends by the moves. -/
def Keeps (s : System) (table : String) : List Move → Prop
  | [] => True
  | move :: rest => ¬ s.Drops table move ∧ ∀ t, s.move move = some t → t.Keeps table rest

/-- A table keeps its guard in a run in which it is not removed. -/
theorem Reached.guardOf?_run (h : Reached config s) {moves : List Move}
    (hr : s.run moves = some t) {table : String} (hg : s.guardOf? table = some guard)
    (hk : s.Keeps table moves) : t.guardOf? table = some guard := by
  induction moves generalizing s with
  | nil =>
    cases hr
    exact hg
  | cons move rest ih =>
    obtain ⟨next, hm, hrest⟩ := Option.bind_eq_some_iff.mp hr
    exact ih (h.move hm) hrest (h.guardOf?_move hm hg hk.1) (hk.2 next hm)

/-! ## Reading behind another statement -/

/-- A statement that is bound to a guard and reads is inside. -/
theorem inside_of_read {number : Nat} {failure : Option StorageError}
    (hm : s.move (.read number failure) = some t)
    (ha : s.calls[number]? = some ⟨.execute statement, stage⟩) (hb : stage.Bound guard) :
    stage.spot = some (.inside guard) ∧ ∃ locks, stage = .loading locks none := by
  cases step_of_caller hm ha rfl with
  | looked failure =>
    cases hb with
    | past hpast =>
      cases hpast with
      | inside hs => cases hs
      | ended he => cases he
  | read failure =>
    cases hb with
    | past hpast =>
      cases hpast with
      | inside hs => exact ⟨hs, _, rfl⟩
      | ended he => cases he

/-- Of two statements on one table of which one writes, the second reads only when the first
has ended. -/
theorem Reached.ended_of_behind (h : Reached config s)
    (hf : s.calls[first]? = some ⟨.execute statement, stage⟩)
    (hs : s.calls[second]? = some ⟨.execute other, stage'⟩) (hne : second ≠ first)
    (hb : s.Behind guard first second stage stage')
    (hw : accessOf statement = .write ∨ accessOf other = .write)
    (hi : stage'.spot = some (.inside guard)) : stage.Ended := by
  have hinside {number : Nat} {call : Statement} {stage : Stage}
      (ha : s.calls[number]? = some ⟨.execute call, stage⟩)
      (hs : stage.spot = some (.inside guard)) : s.HasAccess number call guard := by
    rw [HasAccess, spotOf, ha]
    simp only [Option.bind_some, hs, Option.map_some]
  cases hb with
  | waits hl => cases hi
  | ended hbound hended =>
    cases hended with
    | finished result => cases hi
    | aborted => cases hi
  | passed hpast hbound =>
    cases hpast with
    | ended he => exact he
    | inside hin =>
      have haccess := h.orderly.accessOf_eq (hinside hf hin) (hinside hs hi) hne.symm
      rcases hw with hw | hw
      · rw [haccess.1] at hw
        cases hw
      · rw [haccess.2] at hw
        cases hw

/-! ## What the record tells -/

section

variable {document : Document} {owners owners' : List String} {earlier later : List Entry}

/-- A call that has come to a result stands in the record with it. -/
theorem Sound.logged_of_returned {first : Document} {owners : List String} {record : List Entry}
    (h : s.Sound first owners record) {number : Nat} {result : Except Error Reply}
    (hr : s.Returned number result) (hc : counts result = true) :
    Logged record number result := by
  obtain ⟨call, ha⟩ := hr
  cases h.accounted ha with
  | finished logged => exact logged hc

/-- An entry of a call is about what the call is. -/
theorem Sound.call_of_mem (h : s.Sound document owners earlier) {entry : Entry}
    (he : entry ∈ earlier) (ha : s.calls[entry.number]? = some ⟨.execute statement, stage⟩) :
    entry.call = .execute statement := by
  have hnumbered := h.numbered entry he
  rw [ha] at hnumbered
  exact (Option.some.inj hnumbered).symm

/-- A call whose read has not taken place does not stand in the record. -/
theorem Sound.unlogged_of_loading (h : s.Sound document owners earlier) {call : Call}
    {locks : Locks} (ha : s.calls[second]? = some ⟨call, .loading locks none⟩) :
    Unlogged earlier second := by
  cases h.accounted ha with
  | loading checked owns locked current read => exact read

/-- What a call that takes no effect any more has come to is in the stored document. -/
theorem Sound.exists_split (h : s.Sound document owners earlier) (hl : Unlogged later first)
    (he : ∃ entry ∈ earlier ++ later, entry.number = first) :
    ∃ front entry back, earlier = front ++ entry :: back ∧ entry.number = first ∧
      Chained document front entry.before ∧ Chained entry.after back s.stored := by
  obtain ⟨entry, hm, hnumber⟩ := he
  have hentry := (List.mem_append.mp hm).resolve_right fun hlater => hl entry hlater hnumber
  obtain ⟨front, back, hsplit⟩ := List.append_of_mem hentry
  have hchained := h.chained
  rw [hsplit] at hchained
  exact ⟨front, entry, back, hsplit, hnumber, hchained.split⟩

/-- A statement that returns comes to what it comes to on the document that it has read. -/
theorem Sound.answer_of_read (h : s.Sound document owners earlier) {locks : Locks}
    {failure : Option StorageError} {rest : List Move}
    (hr : s.run (.read second failure :: rest) = some t)
    (ht : t.Sound document owners' (earlier ++ s.record (.read second failure :: rest)))
    (ha : s.calls[second]? = some ⟨.execute other, .loading locks none⟩)
    {result : Except Error Reply} (hreturned : t.Returned second result)
    (hc : counts result = true) : result = ((Call.execute other).outcome s.stored).2 := by
  obtain ⟨entry, he, rfl, hresult⟩ := ht.logged_of_returned hreturned hc
  have hlater := (List.mem_append.mp he).resolve_left fun hearly =>
    h.unlogged_of_loading ha entry hearly rfl
  obtain ⟨_, hthere⟩ := exists_stage_run hr ha
  rw [← hresult, Entry.result, ht.call_of_mem he hthere, h.before_of_read hr ha entry hlater rfl]

/-- The rows of an insertion that has taken effect stand in front of those of one that had
not, if nobody has changed or removed rows since the first. -/
theorem Sound.rows_of_inserts (ht : t.Sound document owners (earlier ++ later))
    {insert insert' : Insert} {reply reply' : Reply} {entry : Entry} {front back : List Entry}
    (hsplit : earlier = front ++ entry :: back) (hl : Unlogged earlier second)
    (hf : t.calls[entry.number]? = some ⟨.execute (.insert insert), .finished (.ok reply)⟩)
    (hs : t.calls[second]? = some ⟨.execute (.insert insert'), .finished (.ok reply')⟩)
    (htable : insert'.table = insert.table)
    (happends : ∀ next ∈ back ++ later, next.call.AppendsTo insert.table) :
    ∃ table before between behind, t.stored.find? insert.table = some table ∧
      table.rows = before ++ insert.tuples.map (table.rowOfTuple insert.fields) ++ between ++
        insert'.tuples.map (table.rowOfTuple insert'.fields) ++ behind := by
  have hentry : entry ∈ earlier ++ later := by
    rw [hsplit]
    exact List.mem_append_left _ (List.mem_append_right _ List.mem_cons_self)
  obtain ⟨found, hfound, hnumber, hresult⟩ := ht.logged_of_returned ⟨_, hf⟩ rfl
  obtain ⟨next, hnext, rfl, hresult'⟩ := ht.logged_of_returned ⟨_, hs⟩ rfl
  obtain rfl : found = entry := List.inj_on_of_nodup_map ht.distinct hfound hentry hnumber
  have hlater := (List.mem_append.mp hnext).resolve_left fun hearly => hl next hearly rfl
  obtain ⟨between, behind, rfl⟩ := List.append_of_mem hlater
  -- The record from the first insertion to the second, and on to the end.
  have hchained := ht.chained
  rw [hsplit, List.append_assoc, List.cons_append] at hchained
  have hfirstOn := hchained.split.2
  rw [← List.append_assoc] at hfirstOn happends
  obtain ⟨hbetween, hbehind⟩ := hfirstOn.split
  exact exists_rows_of_inserts (ht.call_of_mem hfound hf) hresult (ht.call_of_mem hnext hs)
    hresult' htable hbetween hbehind (fun e he => happends e (List.mem_append_left _ he))
    fun e he => happends e (List.mem_append_right _ (List.mem_cons_of_mem _ he))

end

/-! ## One after the other -/

/-- Two statements come to what they come to one after the other. The first moves of a
system lead to the read of the second statement, and the others begin with it. -/
structure Successive (start : System) (past : List Move) (s : System) (moves : List Move)
    (t : System) (first second : Nat) (statement other : Statement) : Prop where
  /-- The first has ended when the second reads. -/
  ended : s.HasEnded first
  /-- The first neither reads nor writes any more. -/
  idle : ∀ move ∈ moves, ¬ Touches first move
  /-- What the second does has not taken effect when the first has ended. -/
  unseen : Unlogged (start.record past) second
  /-- If the first has come to something, then the document that the second reads has come
  out of the one that the first has left. -/
  seen : t.takesPart (past ++ moves) first = true → ∃ front entry back,
    start.record past = front ++ entry :: back ∧ entry.number = first ∧
      Chained start.stored front entry.before ∧ Chained entry.after back s.stored ∧
      ∀ result, t.Returned first result → result = entry.result
  /-- The second comes to what it comes to on this document. -/
  answers : ∀ result, t.Returned second result → counts result = true →
    result = ((Call.execute other).outcome s.stored).2
  /-- If both insert and nobody changes or removes rows of their table after the first has,
  then the rows of the first stand in front of those of the second. -/
  rows : ∀ insert insert' reply reply', statement = .insert insert → other = .insert insert' →
    t.Returned first (.ok reply) → t.Returned second (.ok reply') →
    ∀ front entry back, start.record past = front ++ entry :: back → entry.number = first →
    (∀ next ∈ back ++ s.record moves, next.call.AppendsTo insert.table) →
    ∃ table before between behind, t.stored.find? insert.table = some table ∧
      table.rows = before ++ insert.tuples.map (table.rowOfTuple insert.fields) ++ between ++
        insert'.tuples.map (table.rowOfTuple insert'.fields) ++ behind

/-- When a statement asks for a guard after another one has asked for the guard of the same
table and one of them writes, the other one has ended when it reads. -/
theorem Reached.ended_of_read (h : Reached config s) {middle back : List Move}
    {asking asking' : Move} {guard' : Nat} {failure : Option StorageError} {v : System}
    (ha : s.Asks asking first statement guard) (ht : s.run (asking :: middle) = some t)
    (hk : s.Keeps statement.table (asking :: middle))
    (hb : t.Asks asking' second other guard') (htable : other.table = statement.table)
    (hu : t.run (asking' :: back) = some u)
    (hw : accessOf statement = .write ∨ accessOf other = .write)
    (hr : u.move (.read second failure) = some v) :
    ∃ stage locks, u.calls[first]? = some ⟨.execute statement, stage⟩ ∧ stage.Ended ∧
      u.calls[second]? = some ⟨.execute other, .loading locks none⟩ := by
  obtain ⟨asked, hasked, hmiddle⟩ := Option.bind_eq_some_iff.mp ht
  obtain ⟨begun, hbegun, hback⟩ := Option.bind_eq_some_iff.mp hu
  -- Both statements ask for the same guard.
  have hguard := h.guardOf?_run ht ha.known hk
  have hknown := hb.known
  rw [htable, hguard, Option.some.injEq] at hknown
  obtain rfl : guard = guard' := hknown
  -- The second asks behind the first and stays behind it.
  obtain ⟨_, hfirst, hbound⟩ := ha.bound hasked
  obtain ⟨_, hfirst, hbound⟩ := bound_run hmiddle hfirst hbound
  have hne := hb.ne_of_bound hfirst hbound
  have hthere : Reached config t := h.run ht
  obtain ⟨_, hfirst, hsecond, hbehind⟩ := hthere.behind_asks hb hbegun hfirst hbound
  obtain ⟨_, _, hfirst, hsecond, hbehind⟩ :=
    (hthere.move hbegun).behind_run hback hfirst hsecond hne hbehind
  -- It is inside when it reads, so the first is not.
  obtain ⟨_, hbegan, hbound⟩ := hb.bound hbegun
  obtain ⟨_, hstands, hbound⟩ := bound_run hback hbegan hbound
  obtain ⟨hinside, locks, rfl⟩ := inside_of_read hr hstands hbound
  rw [hstands] at hsecond
  cases hsecond
  have hended := ((hthere.move hbegun).run hback).ended_of_behind hfirst hstands hne hbehind hw
    hinside
  exact ⟨_, locks, hfirst, hended, hstands⟩

/-- A statement that reads when another one has ended comes behind it. -/
theorem successive_of_ended {document : Document} {known : List String} {past rest : List Move}
    {failure : Option StorageError} {locks : Locks}
    (hs : (ofDocument config document known).run past = some s)
    (hf : s.calls[first]? = some ⟨.execute statement, stage⟩) (he : stage.Ended)
    (hb : s.calls[second]? = some ⟨.execute other, .loading locks none⟩)
    (htable : other.table = statement.table)
    (ht : s.run (.read second failure :: rest) = some t) :
    Successive (ofDocument config document known) past s (.read second failure :: rest) t first
      second statement other := by
  have hall : (ofDocument config document known).run (past ++ .read second failure :: rest) =
      some t := by
    rw [run_append, hs, Option.bind_some, ht]
  obtain ⟨owners, hsound⟩ := (sound_ofDocument config document known).run hs
  obtain ⟨owners', hlast⟩ := (sound_ofDocument config document known).run hall
  rw [List.nil_append] at hsound hlast
  -- The first statement takes no effect any more, and the second one has taken none yet.
  have hidle := unlogged_record_of_ended ht hf he
  have hunseen := hsound.unlogged_of_loading hb
  have hrecord := record_append hs (.read second failure :: rest)
  constructor
  · exact ⟨_, _, hf, he⟩
  · exact not_touches_of_ended ht hf he
  · exact hunseen
  · intro hpart
    have hlogged := mem_record_of_takesPart hall hlast hpart
    rw [hrecord] at hlogged
    obtain ⟨front, entry, back, hsplit, rfl, hfront, hback⟩ := hsound.exists_split hidle hlogged
    refine ⟨front, entry, back, hsplit, rfl, hfront, hback, fun result hr => ?_⟩
    refine hlast.result_of_returned ?_ hpart hr
    rw [hrecord, hsplit]
    exact List.mem_append_left _ (List.mem_append_right _ List.mem_cons_self)
  · intro result hreturned hcounts
    rw [hrecord] at hlast
    exact hsound.answer_of_read ht hlast hb hreturned hcounts
  · rintro insert insert' reply reply' rfl rfl ⟨_, hreturned⟩ ⟨_, hreturned'⟩ front entry back
      hsplit rfl happends
    obtain ⟨_, hfirst⟩ := exists_stage_run ht hf
    obtain ⟨_, hsecond⟩ := exists_stage_run ht hb
    rw [hreturned, Option.some.injEq, Activity.mk.injEq] at hfirst
    rw [hreturned', Option.some.injEq, Activity.mk.injEq] at hsecond
    rw [hrecord] at hlast
    exact hlast.rows_of_inserts hsplit hunseen (hfirst.1 ▸ hreturned) (hsecond.1 ▸ hreturned')
      htable happends

/-- Whatever else is under way on a handle: of two statements on one table that ask for its
guard one after the other, one of them a writing one, the second reads when the first has
ended, on the document to which the first has led, and the first never comes to know of
the second. -/
theorem successive_of_asks {document : Document} {known : List String} (hn : known.Nodup)
    {front middle back rest : List Move} {asking asking' : Move} {guard' : Nat} {v : System}
    {failure : Option StorageError}
    (hs : (ofDocument config document known).run front = some s)
    (ha : s.Asks asking first statement guard) (ht : s.run (asking :: middle) = some t)
    (hk : s.Keeps statement.table (asking :: middle))
    (hb : t.Asks asking' second other guard') (htable : other.table = statement.table)
    (hu : t.run (asking' :: back) = some u)
    (hw : accessOf statement = .write ∨ accessOf other = .write)
    (hv : u.run (.read second failure :: rest) = some v) :
    Successive (ofDocument config document known) (front ++ asking :: middle ++ asking' :: back) u
      (.read second failure :: rest) v first second statement other := by
  have hreached : Reached config s := (Reached.opened document hn).run hs
  obtain ⟨next, hnext, _⟩ := Option.bind_eq_some_iff.mp hv
  obtain ⟨stage, locks, hfirst, hended, hsecond⟩ :=
    hreached.ended_of_read ha ht hk hb htable hu hw hnext
  have hpast : (ofDocument config document known).run
      (front ++ asking :: middle ++ asking' :: back) = some u := by
    rw [run_append, run_append, hs, Option.bind_some, ht, Option.bind_some, hu]
  exact successive_of_ended hpast hfirst hended hsecond htable hv

/-- Two insertions into one table begin while another table is made; the rows of the one
that began first come first. -/
theorem successive_of_asks_of_insert :
    let document : Document := ⟨[("t", .ofSchema [⟨"a", .text⟩])], List.pairwise_singleton _ _⟩
    let start : System := ofDocument ⟨none⟩ document ["t"]
    let statement : Statement := .insert ⟨"t", .all, [[.text "x"]], .all⟩
    let other : Statement := .insert ⟨"t", .all, [[.text "y"]], .all⟩
    let front : List Move := [.begin (.execute (.create ⟨"u", false, [⟨"b", .text⟩]⟩))]
    let back : List Move :=
      [.read 0 none, .resume 0, .write 0 none, .resume 0, .resume 1, .read 1 none, .resume 1,
        .write 1 none, .resume 1, .resume 2]
    let rest : List Move := [.resume 2, .write 2 none, .resume 2]
    ∃ s t u v, start.run front = some s ∧ s.Asks (.begin (.execute statement)) 1 statement 0 ∧
      s.run [.begin (.execute statement)] = some t ∧
      s.Keeps "t" [.begin (.execute statement)] ∧ t.Asks (.begin (.execute other)) 2 other 0 ∧
      t.run (.begin (.execute other) :: back) = some u ∧
      u.run (.read 2 none :: rest) = some v ∧
      (v.stored.find? "t").map (·.rows.map (·.get? "a")) =
        some [some (.text "x"), some (.text "y")] ∧
      Successive start
        (front ++ .begin (.execute statement) :: [] ++ .begin (.execute other) :: back) u
        (.read 2 none :: rest) v 1 2 statement other := by
  intro document start statement other front back rest
  have hfront : (start.run front).map (fun s => (s.guardOf? "t", s.calls.length)) =
      some (some 0, 1) := by
    decide +kernel
  have hmiddle : ((start.run front).bind fun s => s.run [.begin (.execute statement)]).map
      (fun t => (t.guardOf? "t", t.calls.length)) = some (some 0, 2) := by
    decide +kernel
  have hrest : (start.run (front ++ .begin (.execute statement) :: [] ++
      .begin (.execute other) :: back ++ .read 2 none :: rest)).map
      (fun v => (v.stored.find? "t").map (·.rows.map (·.get? "a"))) =
        some (some [some (.text "x"), some (.text "y")]) := by
    decide +kernel
  obtain ⟨s, hs, hask⟩ := Option.map_eq_some_iff.mp hfront
  rw [hs, Option.bind_some] at hmiddle
  obtain ⟨t, ht, hask'⟩ := Option.map_eq_some_iff.mp hmiddle
  rw [run_append, run_append, run_append, hs, Option.bind_some, ht, Option.bind_some] at hrest
  obtain ⟨v, hlater, hrows⟩ := Option.map_eq_some_iff.mp hrest
  obtain ⟨u, hu, hv⟩ := Option.bind_eq_some_iff.mp hlater
  have hnumber : s.calls.length = 1 := congrArg Prod.snd hask
  have hnumber' : t.calls.length = 2 := congrArg Prod.snd hask'
  have hfirst : s.Asks (.begin (.execute statement)) 1 statement 0 :=
    hnumber ▸ .begins trivial (congrArg Prod.fst hask)
  have hsecond : t.Asks (.begin (.execute other)) 2 other 0 :=
    hnumber' ▸ .begins trivial (congrArg Prod.fst hask')
  have hkeeps : s.Keeps "t" [.begin (.execute statement)] := ⟨id, fun _ _ => trivial⟩
  exact ⟨s, t, u, v, hs, hfirst, ht, hkeeps, hsecond, hu, hv, hrows,
    successive_of_asks (List.nodup_singleton "t") hs hfirst ht hkeeps hsecond rfl hu (.inl rfl) hv⟩

end System

end EmbeddedSql.Session
