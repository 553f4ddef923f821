import EmbeddedSql.Proofs.Lock.Ahead
import EmbeddedSql.Proofs.Session.Known
import EmbeddedSql.Proofs.Session.Passage

/-!
# What keeps a statement waiting

A statement that waits for an open guard has somebody ahead of it: a statement inside with
which it does not go together, or one that has asked before and still waits. If it has
nobody ahead, it is let in when it looks. Nobody gets ahead of a statement that waits, so
whoever finds that somebody is ahead of it knows that it has been so since it asked.
-/

namespace EmbeddedSql.Session.System

open Sql Lock

variable {s t : System} {config : Config} {number guard : Nat} {call : Call}
  {statement : Statement}

/-- A guard that is open has been open before. -/
theorem Reached.open_of_move (h : Reached config s) {move : Move} (hm : s.move move = some t)
    (ho : t.closedAt guard = false) : s.closedAt guard = false := by
  rw [Bool.eq_false_iff]
  intro hclosed
  rw [(h.turn hm).closedAt h.orderly hclosed] at ho
  cases ho

/-- At an open guard only writers wait at the exclusion. -/
theorem Reached.fenced (h : Reached config s) (ho : s.closedAt guard = false) :
    (s.guardAt guard).Fenced := by
  induction h with
  | opened document _ =>
    rw [guardAt_ofDocument]
    exact Guard.fenced_new
  | @move s t move hr hm ih =>
    have hbefore := hr.open_of_move hm ho
    have hcloses := hr.orderly.closes guard
    rw [hbefore] at hcloses
    exact ((hr.turn hm).guards guard).fenced (ih hbefore) (hr.lined.guards hbefore)
      (hr.conserves.guards guard) hcloses
  | stored _ document ih => exact ih ho

/-- Somebody is ahead of a statement that waits for a guard. -/
inductive Barred (s : System) (number : Nat) (statement : Statement) (guard : Nat) : Prop where
  /-- A statement is inside, and one of the two writes. -/
  | inside {other : Nat} {first : Statement} (h : s.HasAccess other first guard)
    (hw : accessOf first = .write ∨ accessOf statement = .write)
  /-- A statement that has asked before still waits. -/
  | waits {other : Nat} {first : Statement}
    (h : s.calls[other]? = some ⟨.execute first, .queued guard⟩)
    (hl : [other, number].Sublist (s.guardAt guard).line)

/-- Access does not go together with that of others if one of them writes. -/
theorem compatible_eq_false_iff {access : Access} {holding : List (Hold Nat)} :
    access.compatible holding = false ↔
      ∃ hold ∈ holding, hold.access = .write ∨ access = .write := by
  cases access with
  | read =>
    simp only [Access.compatible, List.all_eq_false, decide_eq_true_eq]
    refine exists_congr fun hold => and_congr_right fun _ => ?_
    cases hold.access with
    | read => simp
    | write => simp
  | write =>
    cases holding with
    | nil => simp [Access.compatible]
    | cons first rest => simp [Access.compatible]

/-- Somebody is ahead of a statement if somebody is at its guard. -/
theorem Orderly.barred_iff (h : s.Orderly) :
    s.Barred number statement guard ↔ (s.guardAt guard).Ahead number (accessOf statement) := by
  constructor
  · rintro (⟨hi, hw⟩ | ⟨_, hl⟩)
    · exact .inside (compatible_eq_false_iff.mpr ⟨_, h.mem_holding_iff.mpr ⟨_, hi, rfl⟩, hw⟩)
    · exact .waits hl
  · rintro (hi | hl)
    · obtain ⟨⟨other, access⟩, hm, hw⟩ := compatible_eq_false_iff.mp hi
      obtain ⟨first, hf, rfl⟩ := h.mem_holding_iff.mp hm
      exact .inside hf hw
    · obtain ⟨r, hr, rfl⟩ := List.mem_map.mp (hl.subset List.mem_cons_self)
      obtain ⟨first, hf, _⟩ := Attended.waiting h.toAttended hr
      exact .waits (queued_of_spotOf hf) hl

/-- A statement that has looked and waits on waits for an open guard, and somebody is ahead
of it. -/
theorem Reached.barred_of_poll (h : Reached config s)
    (ha : s.calls[number]? = some ⟨.execute statement, .queued guard⟩) {stage : Lock.Stage}
    (hp : ((s.guardAt guard).poll number).2 = some (.waiting stage)) :
    s.closedAt guard = false ∧ s.Barred number statement guard := by
  have hcloses := h.orderly.closes guard
  have hopen : s.closedAt guard = false := by
    rw [Bool.eq_false_iff]
    intro hclosed
    rw [hclosed] at hcloses
    cases Guard.poll_of_closed hcloses hp
  rw [hopen] at hcloses
  refine ⟨hopen, h.orderly.barred_iff.mpr ?_⟩
  obtain ⟨r, hr, rfl, hf⟩ := Guard.exists_find?_of_mem_line (Guard.mem_line_of_poll hp)
  obtain ⟨asked, hspot, haccess⟩ := Attended.waiting h.orderly.toAttended hr
  have hsame := queued_of_spotOf hspot
  rw [ha] at hsame
  cases hsame
  rw [← haccess]
  exact (h.lined.guards hopen).ahead_of_poll (h.conserves.guards guard) hcloses (h.fenced hopen)
    hf hp

/-- Whatever somebody else does, nobody gets ahead of a statement that waits. -/
theorem Reached.barred_of_move (h : Reached config s) {move : Move} (hm : s.move move = some t)
    (hne : number ≠ move.caller s)
    (ha : s.calls[number]? = some ⟨.execute statement, .queued guard⟩)
    (hb : t.closedAt guard = false ∧ t.Barred number statement guard) :
    s.closedAt guard = false ∧ s.Barred number statement guard := by
  have hopen := h.open_of_move hm hb.1
  have hahead := (h.move hm).orderly.barred_iff.mp hb.2
  refine ⟨hopen, h.orderly.barred_iff.mpr ?_⟩
  exact ((h.turn hm).guards guard).ahead (h.lined.guards hopen) (h.conserves.guards guard) hne
    (h.lined.stands ha) hahead

/-- A statement that waits for an open guard waits for that of its table. -/
theorem Orderly.guardOf?_of_queued (h : s.Orderly)
    (ha : s.calls[number]? = some ⟨.execute statement, .queued guard⟩)
    (ho : s.closedAt guard = false) : s.guardOf? statement.table = some guard := by
  have hspot : s.spotOf number = some (.execute statement, .before guard) := by
    rw [spotOf, ha]
    rfl
  obtain ⟨_, hcall, hknown⟩ := h.before hspot
  cases hcall
  rcases hknown with hclosed | hknown
  · rw [ho] at hclosed
    cases hclosed
  · exact (guardOf?_eq_some_iff h).mpr hknown

end EmbeddedSql.Session.System
