import EmbeddedSql.Proofs.Session.Passage
import EmbeddedSql.Proofs.Session.Solo
import Mathlib.Data.Prod.Lex
import Mathlib.Logic.Relation
import Mathlib.Order.WellFounded

/-!
# Calls that wait never wait for each other

A call waits for a guard only as long as it holds nothing, and for the commit lock only as
long as it holds nothing but a guard; whoever holds the commit lock waits for the store
alone. So whoever is waited for stands nearer to its end, or nearer to the head of the
same line: nobody waits for itself through others, and as long as calls are unfinished one
of them goes on.
-/

namespace EmbeddedSql.Session.System

open Sql Lock

variable {s t : System} {config : Config} {number other guard : Nat} {call : Call} {stage : Stage}
  {statement : Statement}

/-- A call has not ended. -/
def Unfinished (s : System) (number : Nat) : Prop :=
  ∃ call stage, s.calls[number]? = some ⟨call, stage⟩ ∧ ¬ stage.Ended

/-- A call can come to another stage by itself or by an answer of the store. -/
def GoesOn (s : System) (number : Nat) : Prop :=
  ∃ move t, move.Drives number ∧ s.move move = some t ∧ t.calls[number]? ≠ s.calls[number]?

/-- A call waits for another one at a lock. -/
inductive WaitsFor (s : System) (number other : Nat) : Prop where
  /-- The other one is inside the guard. -/
  | inside {call call' : Call} {guard : Nat} (h : s.calls[number]? = some ⟨call, .queued guard⟩)
    (ho : s.spotOf other = some (call', .inside guard))
  /-- The other one is in front at the guard. -/
  | before {call : Call} {guard : Nat} (h : s.calls[number]? = some ⟨call, .queued guard⟩)
    (ho : (s.guardAt guard).line.idxOf other < (s.guardAt guard).line.idxOf number)
  /-- The other one holds the commit lock. -/
  | holds {call : Call} {guard : Option Nat}
    (h : s.calls[number]? = some ⟨call, .committing guard⟩) (ho : s.deskOf other = some .holds)
  /-- The other one is in front at the commit lock. -/
  | ahead {call : Call} {guard : Option Nat}
    (h : s.calls[number]? = some ⟨call, .committing guard⟩)
    (ho : s.commit.line.idxOf other < s.commit.line.idxOf number)

/-! ## How far calls are from their end -/

/-- How many locks a call has in front of it, and how many calls stand in front of it at the
first of them. -/
def distance (s : System) (number : Nat) : ℕ ×ₗ ℕ :=
  match s.calls[number]? with
  | some ⟨_, .queued guard⟩ => toLex (2, (s.guardAt guard).line.idxOf number)
  | some ⟨_, .committing _⟩ => toLex (1, s.commit.line.idxOf number)
  | _ => toLex (0, 0)

/-- A call that waits for a guard has two locks in front of it, and in the line those who came
before it. -/
theorem distance_of_queued (h : s.calls[number]? = some ⟨call, .queued guard⟩) :
    s.distance number = toLex (2, (s.guardAt guard).line.idxOf number) := by
  simp only [distance, h]

/-- A call that waits for the commit lock has one lock in front of it, and in the line those
who came before it. -/
theorem distance_of_committing {guard : Option Nat}
    (h : s.calls[number]? = some ⟨call, .committing guard⟩) :
    s.distance number = toLex (1, s.commit.line.idxOf number) := by
  simp only [distance, h]

/-- A call that is inside a guard has one lock in front of it at most. -/
theorem distance_of_inside (h : s.spotOf number = some (call, .inside guard)) (place : Nat) :
    s.distance number < toLex (2, place) := by
  obtain ⟨⟨call', stage⟩, ha, hspot⟩ := Option.bind_eq_some_iff.mp h
  obtain ⟨spot, hs, he⟩ := Option.map_eq_some_iff.mp hspot
  cases he
  simp only [distance, ha]
  split
  next heq =>
    cases heq
    cases hs
  next => exact Prod.Lex.toLex_lt_toLex.mpr (.inl Nat.one_lt_two)
  next => exact Prod.Lex.toLex_lt_toLex.mpr (.inl Nat.zero_lt_two)

/-- The call that holds the commit lock has no lock in front of it. -/
theorem distance_of_holds (h : s.deskOf number = some .holds) (place : Nat) :
    s.distance number < toLex (1, place) := by
  obtain ⟨⟨call, stage⟩, ha, hdesk⟩ := Option.bind_eq_some_iff.mp h
  simp only [distance, ha]
  split
  next heq =>
    cases heq
    cases hdesk
  next heq =>
    cases heq
    cases hdesk
  next => exact Prod.Lex.toLex_lt_toLex.mpr (.inl Nat.zero_lt_one)

/-- A call that stands in line at a guard waits for it. -/
theorem Reached.queued_of_mem_line (h : Reached config s)
    (hm : number ∈ (s.guardAt guard).line) :
    ∃ call, s.calls[number]? = some ⟨call, .queued guard⟩ := by
  obtain ⟨r, hr, rfl⟩ := List.mem_map.mp hm
  obtain ⟨statement, hs, _⟩ := h.orderly.waiting hr
  exact ⟨_, queued_of_spotOf hs⟩

/-- A call that stands in front of the commit lock waits for it. -/
theorem committing_of_deskOf (h : s.deskOf number = some .waits) :
    ∃ call guard, s.calls[number]? = some ⟨call, .committing guard⟩ := by
  obtain ⟨⟨call, stage⟩, ha, hdesk⟩ := Option.bind_eq_some_iff.mp h
  cases stage with
  | committing guard => exact ⟨call, guard, ha⟩
  | loading locks answer =>
    simp only [Stage.desk] at hdesk
    split at hdesk
    · cases hdesk
    · cases hdesk
  | storing locks document rows answer =>
    simp only [Stage.desk] at hdesk
    split at hdesk
    · cases hdesk
    · cases hdesk
  | _ => cases hdesk

/-- A call that stands in line at the commit lock waits for it. -/
theorem Reached.committing_of_mem_line (h : Reached config s) (hm : number ∈ s.commit.line) :
    ∃ call guard, s.calls[number]? = some ⟨call, .committing guard⟩ := by
  obtain ⟨list, hattends, hlist⟩ := h.conserves.commit.attends
  exact committing_of_deskOf (hlist number (hattends.line_subset hm))

/-- Whoever is waited for is nearer to its end. -/
theorem Reached.distance_lt (h : Reached config s) (hw : s.WaitsFor number other) :
    s.distance other < s.distance number := by
  cases hw with
  | inside hq ho =>
    rw [distance_of_queued hq]
    exact distance_of_inside ho _
  | before hq ho =>
    have hm := List.idxOf_lt_length_iff.mp (ho.trans_le List.idxOf_le_length)
    obtain ⟨call, hother⟩ := h.queued_of_mem_line hm
    rw [distance_of_queued hq, distance_of_queued hother]
    exact Prod.Lex.toLex_lt_toLex.mpr (.inr ⟨rfl, ho⟩)
  | holds hc ho =>
    rw [distance_of_committing hc]
    exact distance_of_holds ho _
  | ahead hc ho =>
    have hm := List.idxOf_lt_length_iff.mp (ho.trans_le List.idxOf_le_length)
    obtain ⟨call, guard, hother⟩ := h.committing_of_mem_line hm
    rw [distance_of_committing hc, distance_of_committing hother]
    exact Prod.Lex.toLex_lt_toLex.mpr (.inr ⟨rfl, ho⟩)

/-- Whoever is waited for through others is nearer to its end. -/
theorem Reached.distance_lt_of_transGen (h : Reached config s)
    (hw : Relation.TransGen s.WaitsFor number other) : s.distance other < s.distance number := by
  induction hw with
  | single hw => exact h.distance_lt hw
  | tail _ hw ih => exact (h.distance_lt hw).trans ih

/-! ## Calls that are no statements -/

/-- A call takes no locks: it reads the document, or it has ended. -/
def ReadsOnly (stage : Stage) : Prop :=
  (∃ answer, stage = .loading ⟨none, false⟩ answer) ∨ stage.Ended

/-- A call that is no statement takes no locks. -/
def Consults (s : System) : Prop :=
  ∀ {number : Nat} {call : Call} {stage : Stage}, s.calls[number]? = some ⟨call, stage⟩ →
    (∀ statement, call ≠ .execute statement) → ReadsOnly stage

/-- A step of a call that is no statement takes no locks. -/
theorem readsOnly_of_caller {move : Move} (hm : s.move move = some t)
    (ha : s.calls[number]? = some ⟨call, stage⟩) (hn : ∀ statement, call ≠ .execute statement)
    (hr : ReadsOnly stage) (hc : number = move.caller s) :
    ∃ stage', t.calls[number]? = some ⟨call, stage'⟩ ∧ ReadsOnly stage' := by
  have hp : (s.calls[number]?).map (·.call) = some call := congrArg (Option.map (·.call)) ha
  rcases hr with ⟨answer, rfl⟩ | he
  · cases step_of_caller hm ha hc with
    | read failure => exact ⟨_, getElem?_setStage_self hp _, .inl ⟨_, rfl⟩⟩
    | loaded answer =>
      rcases afterLoading_cases s number call ⟨none, false⟩ answer with ⟨result, he⟩ |
        ⟨statement, _, _, _, hcall, _⟩
      · rw [he]
        exact ⟨_, getElem?_finish hp _ result, .inr (.finished result)⟩
      · exact absurd hcall (hn statement)
    | abandoned hleft _ =>
      exact ⟨_, getElem?_setStage_self ((hleft.same number).trans hp) _, .inr .aborted⟩
  · exact absurd hc (ne_caller_of_ended hm ha he)

/-- After a move a call that is no statement takes no locks. -/
theorem Consults.move (h : s.Consults) {move : Move} (hm : s.move move = some t) :
    t.Consults := by
  intro number call stage ha hn
  by_cases hc : number = move.caller s
  · by_cases hb : ∃ begun, move = .begin begun
    · obtain ⟨begun, rfl⟩ := hb
      cases hm
      subst hc
      obtain rfl : call = begun := call_of_begin ha
      cases call with
      | execute statement => exact absurd rfl (hn statement)
      | tableNames =>
        simp only [System.begin, Move.caller, List.getElem?_concat_length, Option.some.injEq,
          Activity.mk.injEq] at ha
        exact .inl ⟨none, ha.2.symm⟩
      | schema table =>
        simp only [System.begin, Move.caller, List.getElem?_concat_length, Option.some.injEq,
          Activity.mk.injEq] at ha
        exact .inl ⟨none, ha.2.symm⟩
    · obtain ⟨⟨call', before⟩, hbefore⟩ := exists_of_caller hm fun begun he => hb ⟨begun, he⟩
      rw [← hc] at hbefore
      obtain ⟨_, hstage⟩ := exists_stage_move hm hbefore
      rw [ha] at hstage
      cases hstage
      obtain ⟨stage', hstage, hr⟩ := readsOnly_of_caller hm hbefore hn (h hbefore hn) hc
      rw [ha] at hstage
      cases hstage
      exact hr
  · rw [others_move hm hc] at ha
    exact h ha hn

/-- In a system that is reached a call that is no statement takes no locks. -/
theorem Reached.consults (h : Reached config s) : s.Consults := by
  induction h with
  | opened document _ => exact fun ha _ => by cases ha
  | move _ hm ih => exact ih.move hm
  | stored _ document ih => exact fun ha => ih ha

/-- Only statements look a table up. -/
theorem Reached.execute_of_finding (h : Reached config s)
    {answer : Option (Except StorageError Document)}
    (ha : s.calls[number]? = some ⟨call, .finding answer⟩) :
    ∃ statement, call = .execute statement := by
  by_contra hno
  rcases h.consults ha fun statement he => hno ⟨statement, he⟩ with ⟨_, he⟩ | he
  · cases he
  · cases he

/-! ## Who goes on -/

/-- A call goes on if it has a step to another stage. -/
theorem goesOn_of_step {move : Move} {stage' : Stage} (hd : move.Drives number)
    (h : s.Step number call stage move t) (ha : s.calls[number]? = some ⟨call, stage⟩)
    (ht : t.calls[number]? = some ⟨call, stage'⟩) (hne : stage' ≠ stage) : s.GoesOn number := by
  have hm : move ≠ .abort number := by
    rintro rfl
    cases hd
  refine ⟨move, t, hd, h.move ha hm, fun he => ?_⟩
  rw [ht, ha, Option.some.injEq, Activity.mk.injEq] at he
  exact hne he.2

/-- A statement that looks its table up goes on. -/
theorem goesOn_of_finding {answer : Option (Except StorageError Document)}
    (ha : s.calls[number]? = some ⟨.execute statement, .finding answer⟩) : s.GoesOn number := by
  have hp : (s.calls[number]?).map (·.call) = some (.execute statement) :=
    congrArg (Option.map (·.call)) ha
  cases answer with
  | none => exact goesOn_of_step .read (.looked none) ha (getElem?_setStage_self hp _) nofun
  | some answer =>
    obtain ⟨stage, hstage, guard, hb⟩ := bound_afterFinding hp statement answer
    refine goesOn_of_step .resume (.found answer) ha hstage ?_
    rintro rfl
    cases hb with
    | past hpast =>
      cases hpast with
      | inside hi => cases hi
      | ended he => cases he

/-- A call that reads the document goes on. -/
theorem goesOn_of_loading {locks : Locks} {answer : Option (Except StorageError Document)}
    (ha : s.calls[number]? = some ⟨call, .loading locks answer⟩) : s.GoesOn number := by
  have hp : (s.calls[number]?).map (·.call) = some call := congrArg (Option.map (·.call)) ha
  cases answer with
  | none =>
    refine goesOn_of_step .read (.read none) ha (getElem?_setStage_self hp _) fun he => ?_
    cases he
  | some answer =>
    have hstep : s.Step number call (.loading locks (some answer)) (.resume number) _ :=
      .loaded answer
    rcases afterLoading_cases s number call locks answer with ⟨result, he⟩ |
      ⟨_, _, _, _, _, _, _, _, he⟩
    · rw [he] at hstep
      exact goesOn_of_step .resume hstep ha (getElem?_finish hp locks result) nofun
    · rw [he] at hstep
      exact goesOn_of_step .resume hstep ha (getElem?_setStage_self hp _) nofun

/-- A statement that writes the changed document goes on. -/
theorem goesOn_of_storing {locks : Locks} {document : Document} {rows : List Row}
    {answer : Option (Except StorageError Unit)}
    (ha : s.calls[number]? = some ⟨call, .storing locks document rows answer⟩) :
    s.GoesOn number := by
  have hp : (s.calls[number]?).map (·.call) = some call := congrArg (Option.map (·.call)) ha
  cases answer with
  | none =>
    have hwritten := getElem?_setStage_self (s := { s with stored := document }) hp
      (.storing locks document rows (some (.ok ())))
    refine goesOn_of_step .write .written ha hwritten fun he => ?_
    cases he
  | some answer =>
    obtain ⟨result, hresult⟩ := ended_afterStoring hp locks rows answer
    exact goesOn_of_step .resume (.stored answer) ha hresult nofun

/-- Whoever stands in a line and is not its head stands behind the head. -/
theorem idxOf_head_lt {head : Nat} {rest : List Nat} (hne : head ≠ number) :
    (head :: rest).idxOf head < (head :: rest).idxOf number := by
  rw [List.idxOf_cons_self, List.idxOf_cons_ne rest hne]
  exact Nat.succ_pos _

/-- A call that waits for the commit lock goes on, or another one holds it or is in front. -/
theorem Reached.goesOn_of_committing (h : Reached config s) {guard : Option Nat}
    (ha : s.calls[number]? = some ⟨call, .committing guard⟩) :
    s.GoesOn number ∨ ∃ other, s.WaitsFor number other := by
  by_cases hheld : ∃ other, s.deskOf other = some .holds
  · obtain ⟨other, ho⟩ := hheld
    exact .inr ⟨other, .holds ha ho⟩
  · have hspare := h.conserves.commit.free fun other ho => hheld ⟨other, ho⟩
    have hstands : number ∈ s.commit.line := h.lined.stands ha
    cases hline : s.commit.line with
    | nil =>
      rw [hline] at hstands
      cases hstands
    | cons head rest =>
      by_cases hhead : head = number
      · -- The lock is free for the head of its line.
        subst hhead
        have hgranted := h.lined.commit.poll_granted h.conserves.commit.isOpen hspare hline
        have hp : (s.calls[head]?).map (·.call) = some call := congrArg (Option.map (·.call)) ha
        exact .inl (goesOn_of_step .resume (.locked hgranted) ha
          (getElem?_setStage_self (s := { s with commit := _ }) hp _) nofun)
      · refine .inr ⟨head, .ahead ha ?_⟩
        rw [hline]
        exact idxOf_head_lt hhead

/-- A statement that waits for a guard goes on, or another one is inside or in front. -/
theorem Reached.goesOn_of_queued (h : Reached config s)
    (ha : s.calls[number]? = some ⟨.execute statement, .queued guard⟩) :
    s.GoesOn number ∨ ∃ other, s.WaitsFor number other := by
  have hp : (s.calls[number]?).map (·.call) = some (.execute statement) :=
    congrArg (Option.map (·.call)) ha
  have hstands : number ∈ (s.guardAt guard).line := h.lined.stands ha
  have hcloses := h.orderly.closes guard
  cases hclosed : s.closedAt guard with
  | true =>
    rw [hclosed] at hcloses
    -- A closed guard answers everybody who waits.
    have hfailed := Guard.poll_of_mem_line hcloses hstands
    exact .inl (goesOn_of_step .resume (.heard hfailed) ha
      (getElem?_setStage_self (s := s.setGuard guard _) hp _) nofun)
  | false =>
    rw [hclosed] at hcloses
    cases hholding : (s.guardAt guard).holding with
    | cons hold rest =>
      have hm : hold ∈ (s.guardAt guard).holding := hholding ▸ List.mem_cons_self
      obtain ⟨other, ho, _⟩ := h.orderly.holding hm
      exact .inr ⟨hold.client, .inside ha ho⟩
    | nil =>
      cases hline : (s.guardAt guard).line with
      | nil =>
        rw [hline] at hstands
        cases hstands
      | cons head rest =>
        by_cases hhead : head = number
        · -- The guard is free for the head of its line.
          subst hhead
          have hgranted := (h.lined.guards hclosed).poll_granted (h.conserves.guards guard) hcloses
            hholding hline
          obtain ⟨stage, hstage, hspot⟩ := exists_afterGuard
            (s := s.setGuard guard ((s.guardAt guard).poll head).1) hp statement guard .granted
          refine .inl (goesOn_of_step .resume (.heard hgranted) ha hstage ?_)
          rintro rfl
          cases hspot
        · refine .inr ⟨head, .before ha ?_⟩
          rw [hline]
          exact idxOf_head_lt hhead

/-- An unfinished call goes on or waits for another one. -/
theorem Reached.goesOn_or_waitsFor (h : Reached config s) (hu : s.Unfinished number) :
    s.GoesOn number ∨ ∃ other, s.WaitsFor number other := by
  obtain ⟨call, stage, ha, hended⟩ := hu
  cases stage with
  | finding answer =>
    obtain ⟨statement, rfl⟩ := h.execute_of_finding ha
    exact .inl (goesOn_of_finding ha)
  | queued guard =>
    have hspot : s.spotOf number = some (call, .before guard) := by
      rw [spotOf, ha]
      rfl
    obtain ⟨statement, rfl, _⟩ := h.orderly.before hspot
    exact h.goesOn_of_queued ha
  | committing guard => exact h.goesOn_of_committing ha
  | loading locks answer => exact .inl (goesOn_of_loading ha)
  | storing locks document rows answer => exact .inl (goesOn_of_storing ha)
  | finished result => exact absurd (.finished result) hended
  | aborted => exact absurd .aborted hended

/-- Whoever stands at a lock is unfinished. -/
theorem unfinished_of_stage (ha : s.calls[number]? = some ⟨call, stage⟩)
    (hs : stage.spot ≠ none ∨ stage.desk ≠ none) : s.Unfinished number := by
  refine ⟨call, stage, ha, fun he => ?_⟩
  cases he with
  | finished result => exact hs.elim (absurd rfl) (absurd rfl)
  | aborted => exact hs.elim (absurd rfl) (absurd rfl)

/-- Whoever is waited for is unfinished. -/
theorem Reached.unfinished_of_waitsFor (h : Reached config s) (hw : s.WaitsFor number other) :
    s.Unfinished other := by
  cases hw with
  | inside hq ho =>
    obtain ⟨⟨call, stage⟩, ha, hspot⟩ := Option.bind_eq_some_iff.mp ho
    obtain ⟨spot, hs, _⟩ := Option.map_eq_some_iff.mp hspot
    exact unfinished_of_stage ha (.inl (by simp [hs]))
  | before hq ho =>
    have hm := List.idxOf_lt_length_iff.mp (ho.trans_le List.idxOf_le_length)
    obtain ⟨call, ha⟩ := h.queued_of_mem_line hm
    exact unfinished_of_stage ha (.inl nofun)
  | holds hc ho =>
    obtain ⟨⟨call, stage⟩, ha, hdesk⟩ := Option.bind_eq_some_iff.mp ho
    exact unfinished_of_stage ha (.inr (by simp [hdesk]))
  | ahead hc ho =>
    have hm := List.idxOf_lt_length_iff.mp (ho.trans_le List.idxOf_le_length)
    obtain ⟨call, guard, ha⟩ := h.committing_of_mem_line hm
    exact unfinished_of_stage ha (.inr nofun)

/-! ## No deadlock -/

/-- The calls of a system do not block each other. -/
structure NoDeadlock (s : System) : Prop where
  /-- An unfinished call goes on or waits for another unfinished one. -/
  waits : ∀ number, s.Unfinished number →
    s.GoesOn number ∨ ∃ other, s.Unfinished other ∧ s.WaitsFor number other
  /-- No call waits for itself through others. -/
  acyclic : ∀ number, ¬ Relation.TransGen s.WaitsFor number number
  /-- If a call is unfinished, one that is unfinished goes on. -/
  progress : (∃ number, s.Unfinished number) → ∃ number, s.Unfinished number ∧ s.GoesOn number

/-- Whatever calls are under way on a handle and whatever has become of others, the calls
never block each other. -/
theorem Reached.noDeadlock (h : Reached config s) : s.NoDeadlock where
  waits number hu := (h.goesOn_or_waitsFor hu).imp_right fun ⟨other, hw⟩ =>
    ⟨other, h.unfinished_of_waitsFor hw, hw⟩
  acyclic number hw := lt_irrefl _ (h.distance_lt_of_transGen hw)
  progress := by
    rintro ⟨number, hu⟩
    -- The unfinished call nearest to its end waits for nobody.
    obtain ⟨nearest, hu, hleast⟩ := (InvImage.wf s.distance wellFounded_lt).has_min
      {number | s.Unfinished number} ⟨number, hu⟩
    refine ⟨nearest, hu, (h.goesOn_or_waitsFor hu).resolve_right ?_⟩
    rintro ⟨other, hw⟩
    exact hleast other (h.unfinished_of_waitsFor hw) (h.distance_lt hw)

/-- A selection waits for an insertion into the same table, which waits for another table to
be made. -/
theorem Reached.noDeadlock_of_create :
    let document : Document := ⟨[("t", .ofSchema [⟨"a", .text⟩])], List.pairwise_singleton _ _⟩
    let moves : List Move :=
      [.begin (.execute (.create ⟨"u", false, [⟨"b", .text⟩]⟩)),
        .begin (.execute (.insert ⟨"t", .all, [[.text "x"]], .all⟩)),
        .begin (.execute (.select ⟨"t", .all, []⟩))]
    ∃ s, (ofDocument ⟨none⟩ document ["t"]).run moves = some s ∧
      Relation.TransGen s.WaitsFor 2 0 ∧ s.NoDeadlock := by
  intro document moves
  have hplaces : ((ofDocument ⟨none⟩ document ["t"]).run moves).map
      (fun s => (s.spotOf 2, s.spotOf 1, s.deskOf 1, s.deskOf 0)) =
      some (some (.execute (.select ⟨"t", .all, []⟩), .before 0),
        some (.execute (.insert ⟨"t", .all, [[.text "x"]], .all⟩), .inside 0), some .waits,
        some .holds) := by
    decide +kernel
  obtain ⟨s, hr, hs⟩ := Option.map_eq_some_iff.mp hplaces
  simp only [Prod.mk.injEq] at hs
  obtain ⟨hselects, hinserts, hwaits, hholds⟩ := hs
  obtain ⟨_, _, hcommitting⟩ := committing_of_deskOf hwaits
  have hfirst : s.WaitsFor 2 1 := .inside (queued_of_spotOf hselects) hinserts
  have hsecond : s.WaitsFor 1 0 := .holds hcommitting hholds
  have hreached : Reached ⟨none⟩ s := (Reached.opened document (List.nodup_singleton "t")).run hr
  exact ⟨s, hr, .tail (.single hfirst) hsecond, Reached.noDeadlock hreached⟩

end EmbeddedSql.Session.System
