import EmbeddedSql.Proofs.Lock.Exclusion
import EmbeddedSql.Proofs.Session.Retiring
import Mathlib.Logic.Function.Basic

/-!
# Where calls stand at the guards

A call waits for a guard, is inside it, or is nowhere. The guards, the known
tables and the places of the calls agree: whoever is inside a guard has it for a
table that is known by this guard, which is open. The agreement is kept by all
that a system does with its guards, and two statements that are inside for one
table are inside one guard together.
-/

namespace EmbeddedSql.Session

open Sql Lock

/-- Where a call stands with respect to a guard. -/
inductive Spot where
  /-- It waits for the guard. -/
  | before (guard : Nat)
  /-- It was let in and has not left. -/
  | inside (guard : Nat)
  deriving DecidableEq, Repr

/-- Where a call stands at a stage. -/
def Stage.spot : Stage → Option Spot
  | .finding _ => none
  | .queued guard => some (.before guard)
  | .committing guard => guard.map .inside
  | .loading locks _ => locks.guard.map .inside
  | .storing locks _ _ _ => locks.guard.map .inside
  | .finished _ => none
  | .aborted => none

namespace System

/-- The call with a number and where it stands, none if it stands nowhere. -/
def spotOf (s : System) (number : Nat) : Option (Call × Spot) :=
  (s.calls[number]?).bind fun activity => activity.stage.spot.map fun spot => (activity.call, spot)

/-- A statement has access to its table under a guard. -/
def HasAccess (s : System) (number : Nat) (statement : Statement) (guard : Nat) : Prop :=
  s.spotOf number = some (.execute statement, .inside guard)

/-- The guards agree with where the calls stand about who waits and who is
inside. -/
structure Attended (s : System) (spots : Nat → Option (Call × Spot)) : Prop where
  /-- Every guard keeps everybody away from a writer. -/
  exclusive : ∀ number, (s.guardAt number).Exclusive
  /-- A request is that of a statement that waits for the guard. -/
  waiting : ∀ {number : Nat} {r : Lock.Request Nat}, r ∈ (s.guardAt number).waiting →
    ∃ statement, spots r.client = some (.execute statement, .before number) ∧
      r.access = accessOf statement
  /-- Whoever is held to be inside a guard is a statement that was let in. -/
  holding : ∀ {number : Nat} {hold : Lock.Hold Nat}, hold ∈ (s.guardAt number).holding →
    ∃ statement, spots hold.client = some (.execute statement, .inside number) ∧
      hold.access = accessOf statement
  /-- Whoever was let in is a statement that is held to be inside. -/
  inside : ∀ {client number : Nat} {call : Call}, spots client = some (call, .inside number) →
    ∃ statement, call = .execute statement ∧
      ⟨client, accessOf statement⟩ ∈ (s.guardAt number).holding

/-- The guards agree with where the calls stand, and so do the known tables. -/
structure Guarded (s : System) (spots : Nat → Option (Call × Spot)) : Prop
    extends Attended s spots where
  /-- The semaphores of a guard are closed or open, both of them. -/
  closes : ∀ number, (s.guardAt number).Closes (s.closedAt number)
  /-- Whoever was let in is inside the guard that the table is known by. -/
  admitted : ∀ {client number : Nat} {statement : Statement},
    spots client = some (.execute statement, .inside number) → (statement.table, number) ∈ s.known
  /-- Whoever waits for an open guard waits for that of the table. -/
  before : ∀ {client number : Nat} {call : Call}, spots client = some (call, .before number) →
    ∃ statement, call = .execute statement ∧
      (s.closedAt number = true ∨ (statement.table, number) ∈ s.known)
  /-- A table is known by one guard. -/
  tables : (s.known.map Prod.fst).Nodup
  /-- A guard is that of one table. -/
  numbers : (s.known.map Prod.snd).Nodup
  /-- A known guard is there and open. -/
  opened : ∀ {entry : String × Nat}, entry ∈ s.known →
    entry.2 < s.guards.length ∧ s.closedAt entry.2 = false

/-- The guards and the known tables agree with where the calls stand. -/
def Orderly (s : System) : Prop :=
  s.Guarded s.spotOf

/-- The guards and the known tables agree with where the calls stand, but for one
of them, which stands somewhere else. -/
def Seen (s : System) (hand : Nat) (place : Option (Call × Spot)) : Prop :=
  s.Guarded (Function.update s.spotOf hand place)

variable {s t : System} {spots : Nat → Option (Call × Spot)} {hand : Nat} {call : Call}
  {place : Option (Call × Spot)}

/-! ## Statements with access -/

/-- Those whom the guards hold to be inside are the statements that have access. -/
theorem Orderly.mem_holding_iff (h : s.Orderly) {number guard : Nat} {access : Access} :
    ⟨number, access⟩ ∈ (s.guardAt guard).holding ↔
      ∃ statement, s.HasAccess number statement guard ∧ access = accessOf statement := by
  constructor
  · exact fun hm => Attended.holding h.toAttended hm
  · rintro ⟨statement, ha, rfl⟩
    obtain ⟨_, hcall, hm⟩ := Attended.inside h.toAttended ha
    cases hcall
    exact hm

/-- Statements that have access to one table have it under one guard, which is
open. -/
theorem Orderly.guard_eq (h : s.Orderly) {first second : Nat} {statement other : Statement}
    {guard guard' : Nat} (hf : s.HasAccess first statement guard)
    (hs : s.HasAccess second other guard') (ht : statement.table = other.table) :
    guard = guard' ∧ s.closedAt guard = false := by
  have hknown := h.admitted hf
  have hentry := List.inj_on_of_nodup_map h.tables hknown (h.admitted hs) ht
  exact ⟨congrArg Prod.snd hentry, (h.opened hknown).2⟩

/-- Two statements that have access under one guard only read. -/
theorem Orderly.accessOf_eq (h : s.Orderly) {first second : Nat} {statement other : Statement}
    {guard : Nat} (hf : s.HasAccess first statement guard)
    (hs : s.HasAccess second other guard) (hne : first ≠ second) :
    accessOf statement = .read ∧ accessOf other = .read :=
  (h.exclusive guard).read_of_ne (h.mem_holding_iff.mpr ⟨statement, hf, rfl⟩)
    (h.mem_holding_iff.mpr ⟨other, hs, rfl⟩) hne

/-! ## Taking out and putting back -/

/-- A call is looked at where it stands. -/
theorem Orderly.see (h : s.Orderly) (hand : Nat) : s.Seen hand (s.spotOf hand) := by
  rw [Seen, Function.update_eq_self]
  exact h

/-- The same guards are the same at every number. -/
theorem guardAt_congr (h : t.guards = s.guards) (number : Nat) :
    t.guardAt number = s.guardAt number := by
  simp only [guardAt, h]

/-- Of the same guards the same ones are closed. -/
theorem closedAt_congr (h : t.guards = s.guards) (number : Nat) :
    t.closedAt number = s.closedAt number := by
  simp only [closedAt, guardAt_congr h]

/-- Only the guards matter for who waits and who is inside. -/
theorem Attended.congr (h : s.Attended spots) (hg : ∀ number, t.guardAt number = s.guardAt number) :
    t.Attended spots := by
  constructor
  · intro number
    rw [hg]
    exact h.exclusive number
  · intro number r hr
    rw [hg] at hr
    exact h.waiting hr
  · intro number hold hm
    rw [hg] at hm
    exact h.holding hm
  · intro client number call hi
    rw [hg]
    exact h.inside hi

/-- Only the guards and the known tables matter. -/
theorem Guarded.congr (h : s.Guarded spots) (hguards : t.guards = s.guards)
    (hknown : t.known = s.known) : t.Guarded spots := by
  have hat := guardAt_congr hguards
  have hclosed := closedAt_congr hguards
  refine ⟨h.toAttended.congr hat, ?_, ?_, ?_, ?_, ?_, ?_⟩
  · intro number
    rw [hat, hclosed]
    exact h.closes number
  · rw [hknown]
    exact h.admitted
  · intro client number call hb
    rw [hclosed, hknown]
    exact h.before hb
  · rw [hknown]
    exact h.tables
  · rw [hknown]
    exact h.numbers
  · intro entry he
    rw [hknown] at he
    rw [hguards, hclosed]
    exact h.opened he

/-- The same calls stand at the same places. -/
theorem spotOf_congr (h : t.calls = s.calls) : t.spotOf = s.spotOf := by
  funext number
  simp only [spotOf, h]

/-- The agreement depends on the guards, the known tables and the calls only. -/
theorem Seen.congr (h : s.Seen hand place) (hguards : t.guards = s.guards)
    (hknown : t.known = s.known) (hcalls : t.calls = s.calls) : t.Seen hand place := by
  rw [Seen, spotOf_congr hcalls]
  exact Guarded.congr h hguards hknown

/-- A call is put back where it stands now. -/
theorem Seen.putAt (h : s.Seen hand place) (hp : (s.calls[hand]?).map (·.call) = some call)
    {stage : Stage} (hs : (stage.spot.map fun spot => (call, spot)) = place) :
    (s.setStage hand stage).Orderly := by
  have hspots : (s.setStage hand stage).spotOf = Function.update s.spotOf hand place := by
    funext number
    by_cases hn : number = hand
    · rw [hn, Function.update_self, spotOf, getElem?_setStage_self hp, ← hs]
      rfl
    · rw [Function.update_of_ne hn, spotOf, getElem?_setStage_of_ne hn, spotOf]
  rw [Orderly, hspots]
  exact Guarded.congr h rfl rfl

/-! ## Guards -/

/-- What a call waits for and what it has at a guard, by where it stands. -/
inductive Fits (s : System) (number : Nat) :
    Option (Call × Spot) → Option Access → Option Access → Prop where
  /-- It is not there. -/
  | gone : Fits s number none none none
  /-- It waits. -/
  | before {statement : Statement}
    (h : s.closedAt number = true ∨ (statement.table, number) ∈ s.known) :
    Fits s number (some (.execute statement, .before number)) (some (accessOf statement)) none
  /-- It is inside. -/
  | inside {statement : Statement} (h : (statement.table, number) ∈ s.known) :
    Fits s number (some (.execute statement, .inside number)) none (some (accessOf statement))

/-- Only a statement in front of a guard waits for it, and for the access that it needs. -/
theorem Fits.waits {number : Nat} {waits holds : Option Access}
    (h : s.Fits number place waits holds) {access : Access} (hw : waits = some access) :
    ∃ statement, place = some (.execute statement, .before number) ∧
      access = accessOf statement := by
  cases h with
  | gone => cases hw
  | before hk => exact ⟨_, rfl, (Option.some.inj hw).symm⟩
  | inside hk => cases hw

/-- Only a statement inside a guard has access under it, and the access that it needs. -/
theorem Fits.holds {number : Nat} {waits holds : Option Access}
    (h : s.Fits number place waits holds) {access : Access} (hh : holds = some access) :
    ∃ statement, place = some (.execute statement, .inside number) ∧
      access = accessOf statement := by
  cases h with
  | gone => cases hh
  | before hk => cases hh
  | inside hk => exact ⟨_, rfl, (Option.some.inj hh).symm⟩

/-- A call in front of a guard is a statement, and the guard is closed or that of its table. -/
theorem Fits.of_before {number other : Nat} {waits holds : Option Access}
    (h : s.Fits number (some (call, .before other)) waits holds) :
    ∃ statement, call = .execute statement ∧
      (s.closedAt other = true ∨ (statement.table, other) ∈ s.known) := by
  cases h with
  | before hk => exact ⟨_, rfl, hk⟩

/-- A call inside a guard is a statement on the table that is known by that guard. -/
theorem Fits.of_inside {number other : Nat} {waits holds : Option Access}
    (h : s.Fits number (some (call, .inside other)) waits holds) :
    other = number ∧ ∃ statement, call = .execute statement ∧
      holds = some (accessOf statement) ∧ (statement.table, other) ∈ s.known := by
  cases h with
  | inside hk => exact ⟨rfl, _, rfl, rfl, hk⟩

/-- A call stands at a guard or nowhere. -/
def AtMost (place : Option (Call × Spot)) (number : Nat) : Prop :=
  ∀ call spot, place = some (call, spot) → spot = .before number ∨ spot = .inside number

/-- A call that stands nowhere stands at no other guard. -/
theorem atMost_none (number : Nat) : AtMost none number :=
  fun _ _ he => nomatch he

/-- Those who wait for a guard wait where they stand. -/
theorem Attended.waiting_at (h : s.Attended spots) {number : Nat} {r : Lock.Request Nat}
    (hr : r ∈ (s.guardAt number).waiting) {other : Nat} (ha : AtMost (spots r.client) other) :
    number = other := by
  obtain ⟨statement, hs, _⟩ := h.waiting hr
  rcases ha _ _ hs with he | he
  · exact Spot.before.inj he
  · cases he

/-- Those who are inside a guard stand there. -/
theorem Attended.holding_at (h : s.Attended spots) {number : Nat} {hold : Lock.Hold Nat}
    (hm : hold ∈ (s.guardAt number).holding) {other : Nat} (ha : AtMost (spots hold.client) other) :
    number = other := by
  obtain ⟨statement, hs, _⟩ := h.holding hm
  rcases ha _ _ hs with he | he
  · cases he
  · exact Spot.inside.inj he

/-- A guard does something for a call that stands nowhere else. -/
theorem Attended.serve (h : s.Attended spots) {number : Nat} {guard : Guard Nat}
    {waits holds : Option Access} (hs : (s.guardAt number).Serves guard hand waits holds)
    (hl : number < s.guards.length) (ha : AtMost (spots hand) number)
    (hf : s.Fits number place waits holds) :
    (s.setGuard number guard).Attended (Function.update spots hand place) := by
  have hself : (s.setGuard number guard).guardAt number = guard := by
    rw [guardAt_setGuard, if_pos ⟨rfl, hl⟩]
  have hrest : ∀ {other}, other ≠ number →
      (s.setGuard number guard).guardAt other = s.guardAt other := by
    intro other hne
    rw [guardAt_setGuard, if_neg fun he => hne he.1.symm]
  constructor
  · intro other
    by_cases he : other = number
    · rw [he, hself]
      exact hs.exclusive
    · rw [hrest he]
      exact h.exclusive other
  · intro other r hr
    by_cases he : other = number
    · subst he
      rw [hself] at hr
      -- At the guard itself the call stands as the guard has served it, and the others as
      -- before.
      by_cases hclient : r.client = hand
      · rw [hclient, Function.update_self]
        exact hf.waits (hs.waits r hr hclient)
      · rw [Function.update_of_ne hclient]
        exact h.waiting (hs.others_waiting r hr hclient)
    · rw [hrest he] at hr
      -- At another guard the call does not stand at all.
      have hclient : r.client ≠ hand := fun hc => he (h.waiting_at hr (hc ▸ ha))
      rw [Function.update_of_ne hclient]
      exact h.waiting hr
  · intro other hold hm
    by_cases he : other = number
    · subst he
      rw [hself] at hm
      by_cases hclient : hold.client = hand
      · rw [hclient, Function.update_self]
        exact hf.holds ((hs.holds hold.access).mp (hclient ▸ hm))
      · rw [Function.update_of_ne hclient]
        exact h.holding ((hs.others_holding hold hclient).mp hm)
    · rw [hrest he] at hm
      have hclient : hold.client ≠ hand := fun hc => he (h.holding_at hm (hc ▸ ha))
      rw [Function.update_of_ne hclient]
      exact h.holding hm
  · intro client other call hi
    by_cases hclient : client = hand
    · rw [hclient, Function.update_self] at hi
      rw [hi] at hf
      obtain ⟨rfl, statement, hcall, hholds, _⟩ := hf.of_inside
      refine ⟨statement, hcall, ?_⟩
      rw [hclient, hself]
      exact (hs.holds _).mpr hholds
    · rw [Function.update_of_ne hclient] at hi
      obtain ⟨statement, hcall, hm⟩ := h.inside hi
      refine ⟨statement, hcall, ?_⟩
      by_cases he : other = number
      · subst he
        rw [hself]
        exact (hs.others_holding _ hclient).mpr hm
      · rw [hrest he]
        exact hm

/-- A guard that is neither opened nor closed does something for a call that
stands nowhere else. -/
theorem Guarded.serve (h : s.Guarded spots) {number : Nat} {guard : Guard Nat}
    {waits holds : Option Access} (hs : (s.guardAt number).Serves guard hand waits holds)
    (hc : guard.Closes (s.closedAt number)) (hl : number < s.guards.length)
    (ha : AtMost (spots hand) number) (hf : s.Fits number place waits holds) :
    (s.setGuard number guard).Guarded (Function.update spots hand place) := by
  have hclosed := closedAt_setGuard hc
  refine ⟨h.toAttended.serve hs hl ha hf, ?_, ?_, ?_, h.tables, h.numbers, ?_⟩
  · intro other
    rw [hclosed, guardAt_setGuard]
    split
    next he =>
      rw [← he.1]
      exact hc
    next => exact h.closes other
  · intro client other statement hi
    by_cases hclient : client = hand
    · rw [hclient, Function.update_self] at hi
      rw [hi] at hf
      obtain ⟨_, _, hcall, _, hk⟩ := hf.of_inside
      cases hcall
      exact hk
    · rw [Function.update_of_ne hclient] at hi
      exact h.admitted hi
  · intro client other call hb
    rw [hclosed]
    by_cases hclient : client = hand
    · rw [hclient, Function.update_self] at hb
      rw [hb] at hf
      exact hf.of_before
    · rw [Function.update_of_ne hclient] at hb
      exact h.before hb
  · intro entry he
    rw [hclosed]
    exact ⟨(List.length_set ..).symm ▸ (h.opened he).1, (h.opened he).2⟩

/-! ## What a call does with a guard -/

/-- A call that waits for a guard is a statement, and the guard is there. -/
theorem Seen.waits {number : Nat} (h : s.Seen hand (some (call, .before number))) :
    number < s.guards.length ∧ ∃ statement, call = .execute statement ∧
      (s.closedAt number = true ∨ (statement.table, number) ∈ s.known) := by
  obtain ⟨statement, hcall, hk⟩ := Guarded.before h (Function.update_self ..)
  refine ⟨?_, statement, hcall, hk⟩
  rcases hk with hclosed | hk
  · by_contra hge
    rw [closedAt_of_le (Nat.le_of_not_lt hge)] at hclosed
    cases hclosed
  · exact (h.opened hk).1

/-- A call that is inside a guard is a statement that has it for its table. -/
theorem Seen.has {number : Nat} (h : s.Seen hand (some (call, .inside number))) :
    ∃ statement, call = .execute statement ∧
      ⟨hand, accessOf statement⟩ ∈ (s.guardAt number).holding ∧
      (statement.table, number) ∈ s.known := by
  have hspot := Function.update_self hand (some (call, Spot.inside number)) s.spotOf
  obtain ⟨statement, rfl, hm⟩ := Attended.inside h.toAttended hspot
  exact ⟨statement, rfl, hm, h.admitted hspot⟩

/-- A call that does not stand in front of a guard does not wait for it. -/
theorem Seen.not_waiting (h : s.Seen hand place) (number : Nat)
    (hn : ∀ call, place ≠ some (call, .before number)) :
    ∀ r ∈ (s.guardAt number).waiting, r.client ≠ hand := by
  intro r hr he
  obtain ⟨statement, hs, _⟩ := h.waiting hr
  rw [he, Function.update_self] at hs
  exact hn _ hs

/-- A call that does not stand inside a guard has no access there. -/
theorem Seen.not_holding (h : s.Seen hand place) (number : Nat)
    (hn : ∀ call, place ≠ some (call, .inside number)) :
    ∀ hold ∈ (s.guardAt number).holding, hold.client ≠ hand := by
  intro hold hm he
  obtain ⟨statement, hs, _⟩ := h.holding hm
  rw [he, Function.update_self] at hs
  exact hn _ hs

/-- A guard does something for the call that is looked at. -/
theorem Seen.serve (h : s.Seen hand place) {number : Nat} {guard : Guard Nat}
    {waits holds : Option Access} {place' : Option (Call × Spot)}
    (hs : (s.guardAt number).Serves guard hand waits holds)
    (hc : guard.Closes (s.closedAt number)) (hl : number < s.guards.length)
    (ha : AtMost place number) (hf : s.Fits number place' waits holds) :
    (s.setGuard number guard).Seen hand place' := by
  have hat : AtMost (Function.update s.spotOf hand place hand) number := by
    rw [Function.update_self]
    exact ha
  have hserved := Guarded.serve h hs hc hl hat hf
  rw [Function.update_idem] at hserved
  exact hserved

/-- Where a statement stands that has heard from a guard. -/
def placeAfter (statement : Statement) (number : Nat) : Progress → Option (Call × Spot)
  | .granted => some (.execute statement, .inside number)
  | .failed => none
  | .waiting _ => some (.execute statement, .before number)

/-- A statement that has heard from the guard of its table stands where it waits or has access.
-/
theorem fits_placeAfter {statement : Statement} {number : Nat}
    (hk : (statement.table, number) ∈ s.known) (progress : Progress) :
    s.Fits number (placeAfter statement number progress) (progress.awaits (accessOf statement))
      (progress.brings (accessOf statement)) := by
  cases progress with
  | granted => exact .inside hk
  | failed => exact .gone
  | waiting stage => exact .before (.inr hk)

/-- A statement that stands nowhere asks for the guard of its table. -/
theorem Seen.request {statement : Statement} (h : s.Seen hand none) {number : Nat}
    (hk : (statement.table, number) ∈ s.known) :
    (s.setGuard number ((s.guardAt number).request hand (accessOf statement)).1).Seen hand
      (placeAfter statement number
        ((s.guardAt number).request hand (accessOf statement)).2) := by
  have hw := h.not_waiting number fun _ he => nomatch he
  have hout := h.not_holding number fun _ he => nomatch he
  have hs := Guard.serves_request (h.exclusive number) hw hout (accessOf statement)
  have hc := Guard.closes_request (h.closes number) hand (accessOf statement)
  exact h.serve hs hc (h.opened hk).1 (atMost_none number) (fits_placeAfter hk _)

/-- A call in front of a guard stands at no other one. -/
theorem atMost_before (call : Call) (number : Nat) :
    AtMost (some (call, .before number)) number := by
  intro other spot he
  cases he
  exact .inl rfl

/-- A call inside a guard stands at no other one. -/
theorem atMost_inside (call : Call) (number : Nat) :
    AtMost (some (call, .inside number)) number := by
  intro other spot he
  cases he
  exact .inr rfl

/-- A statement that waits for a guard looks at its request. -/
theorem Seen.poll {statement : Statement} {number : Nat} {progress : Progress}
    (h : s.Seen hand (some (.execute statement, .before number)))
    (hp : ((s.guardAt number).poll hand).2 = some progress) :
    (s.setGuard number ((s.guardAt number).poll hand).1).Seen hand
      (placeAfter statement number progress) := by
  have hw : ∀ r ∈ (s.guardAt number).waiting, r.client = hand →
      r.access = accessOf statement := by
    intro r hr he
    obtain ⟨other, hs, haccess⟩ := h.waiting hr
    rw [he, Function.update_self] at hs
    cases hs
    exact haccess
  have hout := h.not_holding number fun _ he => nomatch he
  have hs := Guard.serves_poll (h.exclusive number) hw hout hp
  have hc := Guard.closes_poll (h.closes number) hand
  obtain ⟨hl, _, hcall, hk⟩ := h.waits
  cases hcall
  refine h.serve hs hc hl (atMost_before _ number) ?_
  rcases hk with hclosed | hk
  · -- A closed guard lets nobody in.
    have hcloses := h.closes number
    rw [hclosed] at hcloses
    rw [Guard.poll_of_closed hcloses hp]
    exact .gone
  · exact fits_placeAfter hk progress

/-- A call that waits for a guard leaves. -/
theorem Seen.cancel {number : Nat} (h : s.Seen hand (some (call, .before number))) :
    (s.setGuard number ((s.guardAt number).cancel hand)).Seen hand none := by
  have hout := h.not_holding number fun _ he => nomatch he
  have hs := Guard.serves_cancel (h.exclusive number) hout
  have hc := Guard.closes_cancel (h.closes number) hand
  exact h.serve hs hc h.waits.1 (atMost_before call number) .gone

/-- A call that is inside a guard leaves. -/
theorem Seen.release {number : Nat} (h : s.Seen hand (some (call, .inside number))) :
    (s.setGuard number ((s.guardAt number).release hand)).Seen hand none := by
  have hw := h.not_waiting number fun _ he => nomatch he
  have hs := Guard.serves_release (h.exclusive number) hw
  have hc := Guard.closes_release (h.closes number) hand
  obtain ⟨statement, _, _, hk⟩ := h.has
  exact h.serve hs hc (h.opened hk).1 (atMost_inside call number) .gone

/-! ## Guards that come and go -/

/-- The guard of a table is known. -/
theorem mem_known_of_guardOf? {table : String} {number : Nat}
    (h : s.guardOf? table = some number) : (table, number) ∈ s.known := by
  obtain ⟨entry, hf, rfl⟩ := Option.map_eq_some_iff.mp h
  have ht := List.find?_some hf
  rw [← of_decide_eq_true ht]
  exact List.mem_of_find?_eq_some hf

/-- A table that has no guard is not known. -/
theorem not_mem_known {table : String} (h : s.guardOf? table = none) :
    table ∉ s.known.map Prod.fst := by
  intro hm
  obtain ⟨entry, he, rfl⟩ := List.mem_map.mp hm
  have hnone := Option.map_eq_none_iff.mp h
  exact List.find?_eq_none.mp hnone entry he (decide_eq_true rfl)

/-- A table gets a guard, unless it has one. -/
theorem Guarded.register (h : s.Guarded spots) (table : String) :
    (s.register table).Guarded spots := by
  cases hg : s.guardOf? table with
  | some number =>
    have hsame : s.register table = s := by
      simp only [System.register, hg]
    rw [hsame]
    exact h
  | none =>
    have hr := register_of_unknown hg
    have hat := guardAt_register s table
    have hclosed : ∀ number, (s.register table).closedAt number = s.closedAt number := by
      intro number
      rw [closedAt, hat, closedAt]
    have hmore : ∀ {entry}, entry ∈ s.known → entry ∈ (s.register table).known := by
      intro entry he
      rw [hr]
      exact List.mem_append_left _ he
    -- The new guard has a number that no guard had before, and its table was not known.
    refine ⟨h.toAttended.congr hat, ?_, fun hi => hmore (h.admitted hi), ?_, ?_, ?_, ?_⟩
    · intro number
      rw [hat, hclosed]
      exact h.closes number
    · intro client number call hb
      obtain ⟨statement, hcall, hk⟩ := h.before hb
      rw [hclosed]
      exact ⟨statement, hcall, hk.imp_right hmore⟩
    · rw [hr, List.map_append, List.nodup_append]
      refine ⟨h.tables, List.pairwise_singleton _ _, ?_⟩
      intro first hf second hs he
      rw [he, List.mem_singleton.mp hs] at hf
      exact not_mem_known hg hf
    · rw [hr, List.map_append, List.nodup_append]
      refine ⟨h.numbers, List.pairwise_singleton _ _, ?_⟩
      intro first hf second hs he
      obtain ⟨entry, hm, rfl⟩ := List.mem_map.mp hf
      have hl := (h.opened hm).1
      rw [he, List.mem_singleton.mp hs] at hl
      exact Nat.lt_irrefl _ hl
    · intro entry he
      rw [hclosed]
      rw [hr] at he ⊢
      simp only [List.length_append, List.length_singleton]
      rcases List.mem_append.mp he with he | he
      · exact ⟨Nat.lt_succ_of_lt (h.opened he).1, (h.opened he).2⟩
      · rw [List.mem_singleton.mp he]
        exact ⟨Nat.lt_succ_self _, closedAt_of_le (Nat.le_refl _)⟩

/-- Giving a table a guard leaves the calls as they are. -/
theorem calls_register (s : System) (table : String) : (s.register table).calls = s.calls := by
  unfold System.register
  split
  · rfl
  · rfl

/-- The agreement is kept when a table gets a guard: a new one is open, and nobody stands at
it. -/
theorem Seen.register (h : s.Seen hand place) (table : String) :
    (s.register table).Seen hand place := by
  rw [Seen, spotOf_congr (calls_register s table)]
  exact Guarded.register h table

/-- Nobody is inside a guard together with a statement that writes. -/
theorem Seen.alone {statement : Statement} {number : Nat}
    (h : s.Seen hand (some (.execute statement, .inside number)))
    (hw : accessOf statement = .write) :
    ∀ hold ∈ (s.guardAt number).holding, hold.client = hand := by
  intro hold hm
  obtain ⟨_, hcall, hhand, _⟩ := h.has
  cases hcall
  by_contra hne
  have hread := (h.exclusive number).read_of_ne hm hhand hne
  rw [hw] at hread
  cases hread.2

/-- A guard is closed, and the others stay open or closed. -/
theorem closedAt_setGuard_of_closed {number : Nat} {guard : Guard Nat} (hc : guard.Closes true)
    (hl : number < s.guards.length) (other : Nat) :
    (s.setGuard number guard).closedAt other =
      if number = other then true else s.closedAt other := by
  rw [closedAt, guardAt_setGuard]
  by_cases he : number = other
  · rw [if_pos ⟨he, hl⟩, if_pos he]
    exact hc.entry
  · rw [if_neg fun hboth => he hboth.1, if_neg he, closedAt]

/-- A call that stands somewhere when another one has left is not that one, and
it stood there before. -/
theorem of_update_none {client : Nat} {spot : Call × Spot}
    (h : Function.update spots hand none client = some spot) (place : Option (Call × Spot)) :
    client ≠ hand ∧ Function.update spots hand place client = some spot := by
  have hne : client ≠ hand := by
    rintro rfl
    rw [Function.update_self] at h
    cases h
  rw [Function.update_of_ne hne] at h ⊢
  exact ⟨hne, h⟩

/-- A table that is not known any more takes its guard along. -/
theorem Guarded.mem_filter_known (h : s.Guarded spots) {table : String} {number : Nat}
    (hk : (table, number) ∈ s.known) (entry : String × Nat) :
    entry ∈ (s.known.filter fun entry => decide (entry ≠ (table, number))) ↔
      entry ∈ s.known ∧ number ≠ entry.2 := by
  rw [List.mem_filter, decide_eq_true_eq]
  refine and_congr_right fun hm => not_congr ⟨fun he => ?_, fun he => ?_⟩
  · rw [he]
  · exact List.inj_on_of_nodup_map h.numbers hm hk he.symm

/-- A statement that writes leaves its guard, which is closed and forgotten. -/
theorem Seen.shut {statement : Statement} {number : Nat} {guard : Guard Nat}
    (h : s.Seen hand (some (.execute statement, .inside number)))
    (hw : accessOf statement = .write) (hs : (s.guardAt number).Serves guard hand none none)
    (hc : guard.Closes true) (hguards : t.guards = (s.setGuard number guard).guards)
    (hknown : t.known =
      s.known.filter fun entry => decide (entry ≠ (statement.table, number)))
    (hcalls : t.calls = s.calls) : t.Seen hand none := by
  obtain ⟨_, hcall, _, hk⟩ := h.has
  cases hcall
  have hl := (h.opened hk).1
  have hm := h.mem_filter_known hk
  have hattended : (s.setGuard number guard).Attended (Function.update s.spotOf hand none) := by
    have hat : AtMost (Function.update s.spotOf hand
        (some (Call.execute statement, Spot.inside number)) hand) number := by
      rw [Function.update_self]
      exact atMost_inside _ number
    have hserved := Attended.serve h.toAttended hs hl hat .gone
    rwa [Function.update_idem] at hserved
  have hclosed : ∀ other, t.closedAt other = if number = other then true else s.closedAt other :=
    fun other => (closedAt_congr hguards other).trans (closedAt_setGuard_of_closed hc hl other)
  rw [Seen, spotOf_congr hcalls]
  refine ⟨hattended.congr (guardAt_congr hguards), ?_, ?_, ?_, ?_, ?_, ?_⟩
  · intro other
    rw [hclosed, guardAt_congr hguards, guardAt_setGuard]
    by_cases he : number = other
    · rw [if_pos ⟨he, hl⟩, if_pos he]
      exact hc
    · rw [if_neg fun hc => he hc.1, if_neg he]
      exact h.closes other
  · intro client other statement' hi
    obtain ⟨hne, hi⟩ := of_update_none hi (some (.execute statement, .inside number))
    rw [hknown, hm]
    refine ⟨h.admitted hi, ?_⟩
    -- Nobody else was inside the guard that is closed.
    rintro rfl
    obtain ⟨_, _, hhold⟩ := Attended.inside h.toAttended hi
    exact hne (h.alone hw _ hhold)
  · intro client other call hb
    obtain ⟨_, hb⟩ := of_update_none hb (some (.execute statement, .inside number))
    obtain ⟨statement', hcall, hwaits⟩ := h.before hb
    refine ⟨statement', hcall, ?_⟩
    rw [hclosed, hknown, hm]
    by_cases he : number = other
    · exact .inl (if_pos he)
    · rw [if_neg he]
      exact hwaits.imp_right fun hk' => ⟨hk', he⟩
  · rw [hknown]
    exact h.tables.sublist (List.filter_sublist.map _)
  · rw [hknown]
    exact h.numbers.sublist (List.filter_sublist.map _)
  · intro entry he
    rw [hknown, hm] at he
    rw [hclosed, if_neg he.2, hguards]
    exact ⟨(List.length_set ..).symm ▸ (h.opened he.1).1, (h.opened he.1).2⟩

/-- A call that gives its locks back leaves its guard. -/
theorem guards_unlock (s : System) (hand number : Nat) (commit : Bool) :
    (s.unlock hand ⟨some number, commit⟩).guards =
      (s.setGuard number ((s.guardAt number).release hand)).guards := by
  cases commit with
  | false => rfl
  | true => rfl

/-- Giving locks back leaves the known tables as they are. -/
theorem known_unlock (s : System) (hand : Nat) (locks : Locks) :
    (s.unlock hand locks).known = s.known := by
  simp only [System.unlock]
  split
  · split
    · rfl
    · rfl
  · split
    · rfl
    · rfl

/-- Giving locks back leaves the calls as they are. -/
theorem calls_unlock (s : System) (hand : Nat) (locks : Locks) :
    (s.unlock hand locks).calls = s.calls := by
  simp only [System.unlock]
  split
  · split
    · rfl
    · rfl
  · split
    · rfl
    · rfl

/-- A statement that has removed its table closes the guard and leaves it. -/
theorem Seen.retire {statement : Statement} {number : Nat}
    (h : s.Seen hand (some (.execute statement, .inside number)))
    (hw : accessOf statement = .write) (commit : Bool) :
    ((s.retire statement.table number).unlock hand ⟨some number, commit⟩).Seen hand none := by
  obtain ⟨_, hcall, _, hk⟩ := h.has
  cases hcall
  have hclose : (s.retire statement.table number).guardAt number = (s.guardAt number).close := by
    rw [System.retire, guardAt_setGuard, if_pos ⟨rfl, (h.opened hk).1⟩]
    rfl
  have hserves := Guard.serves_release (h.exclusive number).close
    (h.not_waiting number fun _ => by simp)
  -- Closing a guard changes neither who waits nor who is inside.
  have hs : (s.guardAt number).Serves ((s.guardAt number).close.release hand) hand none none :=
    ⟨hserves.exclusive, hserves.others_waiting, hserves.others_holding, hserves.waits,
      hserves.holds⟩
  have hc := Guard.closes_release (Guard.closes_close (s.guardAt number)) hand
  refine h.shut hw hs hc ?_ (known_unlock _ hand _) (calls_unlock _ hand _)
  rw [guards_unlock, hclose]
  exact List.set_set ..

/-- A call gives its locks back. -/
theorem Seen.unlock {locks : Locks}
    (h : s.Seen hand ((locks.guard.map Spot.inside).map fun spot => (call, spot))) :
    (s.unlock hand locks).Seen hand none := by
  obtain ⟨guard, commit⟩ := locks
  cases guard with
  | none =>
    cases commit with
    | false => exact h
    | true => exact Seen.congr h rfl rfl rfl
  | some number =>
    have hguards := guards_unlock s hand number commit
    exact Seen.congr h.release hguards (known_unlock s hand _) (calls_unlock s hand _)

end System

end EmbeddedSql.Session
