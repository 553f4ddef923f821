import EmbeddedSql.Proofs.Session.Held
import Mathlib.Data.List.Nodup

/-!
# Closing the guard of a table that is gone

When a statement that has removed a table closes the table's guard, all calls
that wait for this guard take effect at once: the table is missing for each of
them, and none of them changes the stored document.
-/

namespace EmbeddedSql.Session.System

open Sql Lock

variable {s : System} {first : Document} {owners : List String} {record : List Entry}
  {hand : Nat} {call : Call} {carries : Bool}

/-- Only a call that waits for a guard has an entry. -/
theorem waitingEntry_eq_some_iff {guard : Nat} {pair : Activity × Nat} {entry : Entry} :
    s.waitingEntry guard pair = some entry ↔
      pair.1.stage = .queued guard ∧ entry = ⟨pair.2, pair.1.call, s.stored⟩ := by
  unfold waitingEntry
  by_cases hw : pair.1.stage.waitsFor guard = true
  · rw [if_pos hw, Option.some.injEq]
    exact ⟨fun he => ⟨Stage.waitsFor_iff.mp hw, he.symm⟩, fun he => he.2.symm⟩
  · rw [if_neg hw]
    exact ⟨fun he => (nomatch he), fun he => absurd (Stage.waitsFor_iff.mpr he.1) hw⟩

/-- The entries of the calls that wait for a guard. -/
theorem mem_waitingFor {guard : Nat} {entry : Entry} :
    entry ∈ s.waitingFor guard ↔ ∃ activity, s.calls[entry.number]? = some activity ∧
      activity.stage = .queued guard ∧ entry = ⟨entry.number, activity.call, s.stored⟩ := by
  unfold waitingFor
  rw [List.mem_filterMap]
  constructor
  · rintro ⟨⟨activity, number⟩, hm, he⟩
    have hentry := waitingEntry_eq_some_iff.mp he
    have hcall := List.mem_zipIdx_iff_getElem?.mp hm
    have hnumber : entry.number = number := by rw [hentry.2]
    refine ⟨activity, ?_, hentry.1, ?_⟩
    · rw [hnumber]
      exact hcall
    · rw [hnumber]
      exact hentry.2
  · rintro ⟨activity, ha, hw, he⟩
    refine ⟨(activity, entry.number), List.mem_zipIdx_iff_getElem?.mpr ha, ?_⟩
    exact waitingEntry_eq_some_iff.mpr ⟨hw, he⟩

/-- No call waits twice for a guard. -/
theorem nodup_waitingFor (s : System) (guard : Nat) :
    ((s.waitingFor guard).map (·.number)).Nodup := by
  have hsub : ∀ calls : List (Activity × Nat),
      ((calls.filterMap (s.waitingEntry guard)).map (·.number)).Sublist
        (calls.map Prod.snd) := by
    intro calls
    induction calls with
    | nil => exact List.Sublist.refl _
    | cons pair rest ih =>
      rw [List.map_cons]
      cases he : s.waitingEntry guard pair with
      | none =>
        rw [List.filterMap_cons_none he]
        exact ih.cons pair.2
      | some entry =>
        have hnumber : entry.number = pair.2 := by rw [(waitingEntry_eq_some_iff.mp he).2]
        rw [List.filterMap_cons_some he, List.map_cons, hnumber]
        exact ih.cons_cons pair.2
  have hnumbers : (s.calls.zipIdx.map Prod.snd).Nodup := by
    rw [List.zipIdx_map_snd]
    exact List.nodup_range'
  exact hnumbers.sublist (hsub s.calls.zipIdx)

/-- Retiring a guard closes it and no other one. -/
theorem closedAt_retire (table : String) {number : Nat} (hl : number < s.guards.length)
    (other : Nat) :
    (s.retire table number).closedAt other =
      if number = other then true else s.closedAt other := by
  rw [closedAt, System.retire, guardAt_setGuard]
  by_cases he : number = other
  · rw [if_pos ⟨he, hl⟩, if_pos he]
    rfl
  · rw [if_neg fun hc => he hc.1, if_neg he]
    rfl

/-- When a guard has been retired the semaphores of each guard are closed or open, both of
them. -/
theorem closes_retire (h : s.Ledger first owners record) (table : String) {number : Nat}
    (hl : number < s.guards.length) (other : Nat) :
    ((s.retire table number).guardAt other).Closes ((s.retire table number).closedAt other) := by
  rw [closedAt_retire table hl, System.retire, guardAt_setGuard]
  by_cases he : number = other
  · rw [if_pos ⟨he, hl⟩, if_pos he]
    exact Guard.closes_close _
  · rw [if_neg fun hc => he hc.1, if_neg he]
    exact h.closes other

/-- A guard that is closed is no longer known, because only its owner knew it. -/
theorem known_retire (h : s.Ledger first owners record) {table : String} {number : Nat}
    (ho : owners[number]? = some table) (hl : number < s.guards.length) :
    ∀ entry ∈ (s.retire table number).known,
      owners[entry.2]? = some entry.1 ∧ (s.retire table number).closedAt entry.2 = false := by
  intro entry he
  have hm := List.mem_filter.mp he
  have hk := h.known entry hm.1
  refine ⟨hk.1, ?_⟩
  rw [closedAt_retire table hl]
  by_cases hn : number = entry.2
  · have ht : entry = (table, number) := by
      rw [hn, hk.1] at ho
      rw [hn, ← Option.some.inj ho]
    exact absurd ht (of_decide_eq_true hm.2)
  · rw [if_neg hn]
    exact hk.2

/-- The table of a guard is missing for every other call that waits for it. -/
theorem Held.waiting_missing (h : s.Held first owners record hand call carries)
    {table : String} {guard : Nat} (ho : owners[guard]? = some table)
    (hm : s.stored.contains table = false) {number : Nat} {activity : Activity}
    (hne : number ≠ hand) (ha : s.calls[number]? = some activity)
    (hq : activity.stage = .queued guard) :
    ∃ statement, activity.call = .execute statement ∧ statement.AsksGuard ∧
      owners[guard]? = some statement.table ∧
      activity.call.outcome s.stored = (s.stored, missing statement) := by
  obtain ⟨other, stage⟩ := activity
  simp only at hq
  subst hq
  cases h.accounted hne ha with
  | @queued statement _ asks owns waits =>
    rw [owns] at ho
    rw [← Option.some.inj ho] at hm
    exact ⟨statement, rfl, asks, owns, Call.outcome_of_missing asks hm⟩

/-- The calls that wait for an open guard have not taken effect. -/
theorem Held.waiting_unlogged (h : s.Held first owners record hand call carries) {guard : Nat}
    (hopen : s.closedAt guard = false) {number : Nat} {activity : Activity}
    (hne : number ≠ hand) (ha : s.calls[number]? = some activity)
    (hq : activity.stage = .queued guard) : Unlogged record number := by
  obtain ⟨other, stage⟩ := activity
  simp only at hq
  subst hq
  cases h.accounted hne ha with
  | @queued statement _ asks owns waits =>
    rw [if_neg (by rw [hopen]; exact Bool.false_ne_true)] at waits
    exact waits

/-- Closing a guard that is closed already changes nothing but what is known. -/
theorem Held.retire_closed (h : s.Held first owners record hand call carries) {table : String}
    {guard : Nat} (ho : owners[guard]? = some table) (hclosed : s.closedAt guard = true) :
    (s.retire table guard).Held first owners record hand call carries := by
  have hl : guard < s.guards.length := h.owned ▸ (List.getElem?_eq_some_iff.mp ho).1
  have hsame : ∀ number, (s.retire table guard).closedAt number = s.closedAt number := by
    intro number
    rw [closedAt_retire table hl]
    split
    next he => rw [← he, hclosed]
    next => rfl
  refine h.change rfl rfl hsame (List.prefix_refl _) ?_ (known_retire h.toLedger ho hl)
    (closes_retire h.toLedger table hl) h.commit
  rw [h.owned]
  exact (List.length_set ..).symm

/-- The record when an open guard is closed: the calls that wait for it are added. -/
theorem Held.ledger_retire (h : s.Held first owners record hand call carries) {table : String}
    {guard : Nat} (ho : owners[guard]? = some table) (hm : s.stored.contains table = false)
    (hopen : s.closedAt guard = false)
    (hother : ∀ entry ∈ s.waitingFor guard, entry.number ≠ hand) :
    (s.retire table guard).Ledger first owners (record ++ s.waitingFor guard) := by
  have hl : guard < s.guards.length := h.owned ▸ (List.getElem?_eq_some_iff.mp ho).1
  constructor
  · refine h.chained.append (chained_of_before fun entry he => ?_)
    obtain ⟨activity, ha, hq, heq⟩ := mem_waitingFor.mp he
    obtain ⟨statement, _, _, _, hout⟩ := h.waiting_missing ho hm (hother entry he) ha hq
    have hafter : entry.after = s.stored := by
      rw [Entry.after, heq]
      exact congrArg Prod.fst hout
    exact ⟨by rw [heq], hafter⟩
  · intro entry he
    rcases List.mem_append.mp he with he | he
    · exact h.numbered entry he
    · obtain ⟨activity, ha, _, heq⟩ := mem_waitingFor.mp he
      have hcall : entry.call = activity.call := by rw [heq]
      exact hcall ▸ congrArg (Option.map (·.call)) ha
  · rw [List.map_append, List.nodup_append]
    refine ⟨h.distinct, nodup_waitingFor s guard, ?_⟩
    intro number hrecord other hwaiting he
    obtain ⟨old, hold, rfl⟩ := List.mem_map.mp hrecord
    obtain ⟨entry, hnew, rfl⟩ := List.mem_map.mp hwaiting
    obtain ⟨activity, ha, hq, _⟩ := mem_waitingFor.mp hnew
    exact h.waiting_unlogged hopen (hother entry hnew) ha hq old hold he
  · rw [h.owned]
    exact (List.length_set ..).symm
  · exact known_retire h.toLedger ho hl
  · exact closes_retire h.toLedger table hl

/-- A call that waits for a guard has taken effect when the guard is closed, and
nothing changes for the others. -/
theorem Held.accounted_retire (h : s.Held first owners record hand call carries)
    {table : String} {guard : Nat} (ho : owners[guard]? = some table)
    (hm : s.stored.contains table = false) {number : Nat} {activity : Activity}
    (hne : number ≠ hand) (ha : s.calls[number]? = some activity) :
    Accounted (s.retire table guard) owners (record ++ s.waitingFor guard) number activity.call
      activity.stage := by
  have hl : guard < s.guards.length := h.owned ▸ (List.getElem?_eq_some_iff.mp ho).1
  by_cases hq : activity.stage = .queued guard
  · obtain ⟨statement, hcall, hasks, howns, hout⟩ := h.waiting_missing ho hm hne ha hq
    have hlogged : Logged (record ++ s.waitingFor guard) number (missing statement) := by
      have hentry : (⟨number, activity.call, s.stored⟩ : Entry) ∈ s.waitingFor guard :=
        mem_waitingFor.mpr ⟨activity, ha, hq, rfl⟩
      exact ⟨_, List.mem_append_right _ hentry, rfl, congrArg Prod.snd hout⟩
    rw [hcall, hq]
    refine .queued hasks howns ?_
    rw [closedAt_retire table hl, if_pos rfl, if_pos rfl]
    exact hlogged
  · refine (h.accounted hne ha).mono (List.prefix_refl _) ?_ (fun _ => rfl) ?_
    · intro entry he hn
      obtain ⟨waiting, hw, hwq, _⟩ := mem_waitingFor.mp he
      rw [hn, ha] at hw
      cases hw
      exact hq hwq
    · intro other hstage
      rw [closedAt_retire table hl, if_neg]
      rintro rfl
      exact hq hstage

/-- Closing an open guard lets all calls that wait for it take effect. -/
theorem Held.retire_open (h : s.Held first owners record hand call carries) {table : String}
    {guard : Nat} (ho : owners[guard]? = some table) (hm : s.stored.contains table = false)
    (hopen : s.closedAt guard = false) {stage : Stage}
    (hp : s.calls[hand]? = some ⟨call, stage⟩) (hs : stage ≠ .queued guard) :
    (s.retire table guard).Held first owners (record ++ s.waitingFor guard) hand call carries := by
  have hother : ∀ entry ∈ s.waitingFor guard, entry.number ≠ hand := by
    intro entry he hn
    obtain ⟨activity, ha, hq, _⟩ := mem_waitingFor.mp he
    rw [hn, hp] at ha
    cases ha
    exact hs hq
  constructor
  · exact h.ledger_retire ho hm hopen hother
  · exact h.present
  · exact h.commit
  · exact fun hne ha => h.accounted_retire ho hm hne ha

end EmbeddedSql.Session.System
