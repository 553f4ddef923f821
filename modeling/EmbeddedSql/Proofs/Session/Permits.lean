import EmbeddedSql.Proofs.Lock.Conservation
import EmbeddedSql.Proofs.Session.Exclusion

/-!
# No permit of a system is lost

The commit lock is free, assigned to a call that waits for it, or with the one call that
holds it, and the permits of every guard are somewhere too. Every move of a system keeps
this, so a call that has ended, however it ended, keeps hold of nothing.
-/

namespace EmbeddedSql.Session

open Sql Lock

/-- Where a call stands with respect to the commit lock. -/
inductive Desk where
  /-- It waits for the lock. -/
  | waits
  /-- It holds the lock. -/
  | holds
  deriving DecidableEq, Repr

/-- Where a call stands at a stage. -/
def Stage.desk : Stage → Option Desk
  | .committing _ => some .waits
  | .loading locks _ => if locks.commit then some .holds else none
  | .storing locks _ _ _ => if locks.commit then some .holds else none
  | _ => none

/-- The permit of the commit lock is with the one call that holds the lock, or spare if
there is none, and only calls that wait for the lock stand at it. -/
structure Tended (commit : Semaphore Nat) (desks : Nat → Option Desk) : Prop where
  /-- The lock is never closed. -/
  isOpen : commit.closed = false
  /-- One call holds the lock at most. -/
  alone : ∀ {first second : Nat}, desks first = some .holds → desks second = some .holds →
    first = second
  /-- No permit is spare while somebody holds the lock. -/
  taken : ∀ {number : Nat}, desks number = some .holds → commit.spare = 0
  /-- The permit is spare while nobody holds the lock. -/
  free : (∀ number, desks number ≠ some .holds) → commit.spare = 1
  /-- Who stands at the lock. -/
  attends : ∃ list, commit.Attends list ∧ ∀ number ∈ list, desks number = some .waits

namespace Tended

variable {commit changed : Semaphore Nat} {desks : Nat → Option Desk} {hand : Nat}
  {desk desk' : Option Desk}

/-- The calls that stand at the lock apart from one that is looked at. -/
theorem exists_others (h : Tended commit (Function.update desks hand desk)) :
    ∃ others, commit.Attends (if desk = some .waits then hand :: others else others) ∧
      hand ∉ others ∧ ∀ number ∈ others, desks number = some .waits := by
  obtain ⟨list, hattends, hlist⟩ := h.attends
  refine ⟨list.filter (· ≠ hand), hattends.mono fun number hm => ?_, by simp, fun number hm => ?_⟩
  · by_cases he : number = hand
    · have hw := hlist number hm
      rw [he, Function.update_self] at hw
      rw [if_pos hw, he]
      exact List.mem_cons_self
    · have hother : number ∈ list.filter (· ≠ hand) := by simpa using ⟨hm, he⟩
      split
      · exact List.mem_cons_of_mem _ hother
      · exact hother
  · obtain ⟨hm, he⟩ := List.mem_filter.mp hm
    have hw := hlist number hm
    rwa [Function.update_of_ne (of_decide_eq_true he)] at hw

/-- The lists of the lock with a call at another desk. -/
theorem attends_update {others : List Nat}
    (ha : changed.Attends (if desk = some .waits then hand :: others else others))
    (hn : hand ∉ others) (ho : ∀ number ∈ others, desks number = some .waits) :
    ∃ list, changed.Attends list ∧
      ∀ number ∈ list, Function.update desks hand desk number = some .waits := by
  have hothers : ∀ number ∈ others, Function.update desks hand desk number = some .waits := by
    intro number hm
    have hne : number ≠ hand := fun he => hn (he ▸ hm)
    rw [Function.update_of_ne hne]
    exact ho number hm
  refine ⟨_, ha, ?_⟩
  split
  next hw => exact List.forall_mem_cons.mpr ⟨(Function.update_self ..).trans hw, hothers⟩
  next => exact hothers

/-- Whether somebody holds the lock does not change with a call that does not hold it. -/
theorem holds_update (h : desk ≠ some .holds) (h' : desk' ≠ some .holds) (number : Nat) :
    Function.update desks hand desk number = some .holds ↔
      Function.update desks hand desk' number = some .holds := by
  by_cases he : number = hand
  · rw [he, Function.update_self, Function.update_self]
    exact ⟨fun hh => absurd hh h, fun hh => absurd hh h'⟩
  · rw [Function.update_of_ne he, Function.update_of_ne he]

/-- A call that does not hold the lock comes to another desk or leaves. -/
theorem change (h : Tended commit (Function.update desks hand desk)) (hd : desk ≠ some .holds)
    (hd' : desk' ≠ some .holds) (ho : changed.closed = false)
    (hs : changed.spare = commit.spare) {others : List Nat}
    (ha : changed.Attends (if desk' = some .waits then hand :: others else others))
    (hn : hand ∉ others) (hw : ∀ number ∈ others, desks number = some .waits) :
    Tended changed (Function.update desks hand desk') where
  isOpen := ho
  alone hf hs := h.alone ((holds_update hd hd' _).mpr hf) ((holds_update hd hd' _).mpr hs)
  taken hh := hs.trans (h.taken ((holds_update hd hd' _).mpr hh))
  free hh := hs.trans (h.free fun number hn => hh number ((holds_update hd hd' _).mp hn))
  attends := attends_update ha hn hw

/-- A call takes the spare permit, and nobody else holds the lock. -/
theorem take (h : Tended commit (Function.update desks hand desk)) (ho : changed.closed = false)
    (hs : changed.spare + 1 = commit.spare) {others : List Nat}
    (ha : changed.Attends others) (hn : hand ∉ others)
    (hw : ∀ number ∈ others, desks number = some .waits) :
    Tended changed (Function.update desks hand (some .holds)) := by
  have hnobody : ∀ number, Function.update desks hand desk number ≠ some .holds := by
    intro number hh
    have hzero := h.taken hh
    omega
  have hone := h.free hnobody
  have hhand : ∀ {number}, Function.update desks hand (some .holds) number = some .holds →
      number = hand := by
    intro number hh
    by_contra he
    rw [Function.update_of_ne he] at hh
    have hother := hnobody number
    rw [Function.update_of_ne he] at hother
    exact hother hh
  exact ⟨ho, fun hf hs => (hhand hf).trans (hhand hs).symm, fun _ => by omega,
    fun hh => absurd (Function.update_self ..) (hh hand), attends_update ha hn hw⟩

/-- Where a call stands that has heard from the commit lock. -/
def deskAfter : Answer → Desk
  | .granted => .holds
  | _ => .waits

/-- A call that does not get the commit lock waits for it. -/
theorem deskAfter_of_ne {answer : Answer} (h : answer ≠ .granted) : deskAfter answer = .waits := by
  cases answer with
  | granted => exact absurd rfl h
  | failed => rfl
  | waiting => rfl

/-- A call that does not hold the lock hears from it. -/
theorem hear (h : Tended commit (Function.update desks hand desk)) (hd : desk ≠ some .holds)
    (ho : changed.closed = false) {answer : Answer} (hf : answer ≠ .failed)
    (hs : changed.spare + (if answer = .granted then 1 else 0) = commit.spare) {others : List Nat}
    (ha : changed.Attends (if answer = .waiting then hand :: others else others))
    (hn : hand ∉ others) (hw : ∀ number ∈ others, desks number = some .waits) :
    Tended changed (Function.update desks hand (some (deskAfter answer))) := by
  cases answer with
  | failed => exact absurd rfl hf
  | granted => exact h.take ho hs ha hn hw
  | waiting => exact h.change hd nofun ho hs ha hn hw

/-- A call that does not stand at the lock asks for it. -/
theorem request (h : Tended commit (Function.update desks hand none)) :
    Tended (commit.request hand).1
      (Function.update desks hand (some (deskAfter (commit.request hand).2))) := by
  obtain ⟨others, hattends, hn, hw⟩ := h.exists_others
  have hopen := (Semaphore.closed_request commit hand).trans h.isOpen
  have hanswer := Semaphore.request_ne_failed h.isOpen hand
  exact h.hear nofun hopen hanswer (Semaphore.spare_request commit hand) (hattends.request hn) hn hw

/-- A call that waits for the lock looks again. -/
theorem poll (h : Tended commit (Function.update desks hand (some .waits))) :
    Tended (commit.poll hand).1
      (Function.update desks hand (some (deskAfter (commit.poll hand).2))) := by
  obtain ⟨others, hattends, hn, hw⟩ := h.exists_others
  rw [if_pos rfl] at hattends
  have hopen := (Semaphore.closed_poll commit hand).trans h.isOpen
  have hanswer := Semaphore.poll_ne_failed h.isOpen hand
  exact h.hear nofun hopen hanswer (Semaphore.spare_poll commit hand) hattends.poll hn hw

/-- A call that waits for the lock leaves. -/
theorem cancel (h : Tended commit (Function.update desks hand (some .waits))) :
    Tended (commit.cancel hand) (Function.update desks hand none) := by
  obtain ⟨others, hattends, hn, hw⟩ := h.exists_others
  rw [if_pos rfl] at hattends
  have hopen := (Semaphore.closed_cancel commit hand).trans h.isOpen
  exact h.change nofun nofun hopen (Semaphore.spare_cancel commit hand) hattends.cancel hn hw

/-- The call that holds the lock gives it back. -/
theorem release (h : Tended commit (Function.update desks hand (some .holds))) :
    Tended commit.release (Function.update desks hand none) := by
  obtain ⟨others, hattends, hn, hw⟩ := h.exists_others
  have hzero : commit.spare = 0 := h.taken (Function.update_self ..)
  have hone : commit.release.spare = 1 := by rw [Semaphore.spare_release, hzero]
  have hnobody : ∀ number, Function.update desks hand none number ≠ some .holds := by
    intro number hh
    have hne : number ≠ hand := by
      rintro rfl
      rw [Function.update_self] at hh
      cases hh
    have hother : Function.update desks hand (some .holds) number = some .holds := by
      rw [Function.update_of_ne hne] at hh ⊢
      exact hh
    exact hne (h.alone hother (Function.update_self ..))
  exact ⟨(Semaphore.closed_release commit).trans h.isOpen, fun hf _ => absurd hf (hnobody _),
    fun hh => absurd hh (hnobody _), fun _ => hone, attends_update hattends.release hn hw⟩

end Tended

namespace System

/-- Where a call stands with respect to the commit lock. -/
def deskOf (s : System) (number : Nat) : Option Desk :=
  (s.calls[number]?).bind (·.stage.desk)

/-- No permit is lost, given where the calls stand with respect to the commit lock. -/
structure Permitted (s : System) (desks : Nat → Option Desk) : Prop where
  /-- The permits of the guards. -/
  guards : ∀ number, (s.guardAt number).Conserves
  /-- The permit of the commit lock. -/
  commit : Tended s.commit desks

/-- No permit is lost. -/
def Conserves (s : System) : Prop :=
  s.Permitted s.deskOf

/-- No permit is lost if one call stands somewhere else. -/
def Spared (s : System) (hand : Nat) (desk : Option Desk) : Prop :=
  s.Permitted (Function.update s.deskOf hand desk)

variable {s t : System} {hand : Nat} {call : Call} {desk : Option Desk}

/-! ## Taking out and putting back -/

/-- A call is looked at where it stands. -/
theorem Conserves.see (h : s.Conserves) (hand : Nat) : s.Spared hand (s.deskOf hand) := by
  rw [Spared, Function.update_eq_self]
  exact h

/-- The same calls stand at the same places with respect to the commit lock. -/
theorem deskOf_congr (h : t.calls = s.calls) : t.deskOf = s.deskOf := by
  funext number
  simp only [deskOf, h]

/-- A call is put back where it stands now. -/
theorem Spared.putAt (h : s.Spared hand desk) (hp : (s.calls[hand]?).map (·.call) = some call)
    {stage : Stage} (hs : stage.desk = desk) : (s.setStage hand stage).Conserves := by
  have hdesks : (s.setStage hand stage).deskOf = Function.update s.deskOf hand desk := by
    funext number
    by_cases hn : number = hand
    · rw [hn, Function.update_self, deskOf, getElem?_setStage_self hp, ← hs]
      rfl
    · rw [Function.update_of_ne hn, deskOf, getElem?_setStage_of_ne hn, deskOf]
  rw [Conserves, hdesks]
  exact ⟨h.guards, h.commit⟩

/-- A guard is changed. -/
theorem Spared.setGuard (h : s.Spared hand desk) {guard : Guard Nat} (hg : guard.Conserves)
    (number : Nat) : (s.setGuard number guard).Spared hand desk where
  guards other := by
    rw [guardAt_setGuard]
    split
    · exact hg
    · exact h.guards other
  commit := h.commit

/-- A table gets a guard, unless it has one. -/
theorem Spared.register (h : s.Spared hand desk) (table : String) :
    (s.register table).Spared hand desk := by
  rw [Spared, deskOf_congr (calls_register s table)]
  refine ⟨fun number => guardAt_register s table number ▸ h.guards number, ?_⟩
  have hcommit : (s.register table).commit = s.commit := by
    unfold System.register
    split
    · rfl
    · rfl
  rw [hcommit]
  exact h.commit

/-- A guard is closed and forgotten. -/
theorem Spared.retire (h : s.Spared hand desk) (table : String) (number : Nat) :
    (s.retire table number).Spared hand desk := by
  have hknown : ({ s with known := s.known.filter fun entry => entry ≠ (table, number) } :
      System).Spared hand desk := ⟨h.guards, h.commit⟩
  exact hknown.setGuard (h.guards number).close number

/-- A call gives its locks back. -/
theorem Spared.unlock {locks : Locks}
    (h : s.Spared hand (if locks.commit then some .holds else none))
    (hd : ∀ number, ((s.guardAt number).holding.map (·.client)).Nodup) :
    (s.unlock hand locks).Spared hand none := by
  obtain ⟨guard, commit⟩ := locks
  have hcommit : (if commit = true then { s with commit := s.commit.release } else s).Spared hand
      none := by
    cases commit with
    | false => exact h
    | true => exact ⟨h.guards, Tended.release h.commit⟩
  cases guard with
  | none => exact hcommit
  | some number =>
    have hguard : (if commit = true then { s with commit := s.commit.release } else s).guardAt
        number = s.guardAt number := by
      cases commit with
      | false => rfl
      | true => rfl
    have hreleased := (h.guards number).release (hd number) hand
    rw [← hguard] at hreleased
    exact hcommit.setGuard hreleased number

/-! ## Beginning -/

/-- A call asks for the commit lock. -/
theorem Spared.askCommit (h : s.Spared hand none)
    (hp : (s.calls[hand]?).map (·.call) = some call) (guard : Option Nat) :
    (s.askCommit hand guard).Conserves := by
  have hasked : ({ s with commit := (s.commit.request hand).1 } : System).Spared hand
      (some (Tended.deskAfter (s.commit.request hand).2)) := ⟨h.guards, Tended.request h.commit⟩
  unfold System.askCommit
  simp only
  split
  next hg =>
    rw [hg] at hasked
    exact hasked.putAt hp rfl
  next hg =>
    rw [Tended.deskAfter_of_ne hg] at hasked
    exact hasked.putAt hp rfl

/-- A statement has heard from the guard of its table. -/
theorem Spared.afterGuard (h : s.Spared hand none)
    (hp : (s.calls[hand]?).map (·.call) = some call) (statement : Statement) (number : Nat)
    (progress : Progress) : (s.afterGuard hand statement number progress).Conserves := by
  cases progress with
  | failed => exact h.putAt hp rfl
  | waiting stage => exact h.putAt hp rfl
  | granted =>
    have hcommit := h.askCommit hp (some number)
    cases statement with
    | select statement => exact h.putAt hp rfl
    | insert statement => exact hcommit
    | update statement => exact hcommit
    | delete statement => exact hcommit
    | create statement => exact hcommit
    | drop statement => exact hcommit

/-- A statement that stands nowhere asks for a guard. -/
theorem Spared.askGuard (h : s.Spared hand none) (hs : s.Seen hand none)
    (hp : (s.calls[hand]?).map (·.call) = some call) (statement : Statement) (number : Nat) :
    (s.askGuard hand statement number).Conserves := by
  have hw := hs.not_waiting number fun _ he => nomatch he
  have hasked := (h.guards number).request hw (accessOf statement)
  exact (h.setGuard hasked number).afterGuard hp statement number _

/-- A statement begins. -/
theorem Spared.beginStatement (h : s.Spared hand none) (hs : s.Seen hand none)
    (hp : (s.calls[hand]?).map (·.call) = some call) (statement : Statement) :
    (s.beginStatement hand statement).Conserves := by
  unfold System.beginStatement
  split
  · split
    · exact h.putAt hp rfl
    · exact h.askCommit hp none
  · split
    · exact h.askGuard hs hp _ _
    · exact h.putAt hp rfl

/-- A call begins. -/
theorem Conserves.begin (h : s.Conserves) (ho : s.Orderly) (call : Call) :
    (s.begin call).Conserves := by
  have hgrown := ho.grow call
  have hp : ((s.calls ++ [⟨call, .loading ⟨none, false⟩ none⟩])[s.calls.length]?).map (·.call) =
      some call := by simp
  have hdesks : System.deskOf
      { s with calls := s.calls ++ [⟨call, .loading ⟨none, false⟩ none⟩] } = s.deskOf := by
    funext number
    by_cases hn : number = s.calls.length
    · have hnew : s.calls[number]? = none := List.getElem?_eq_none (Nat.le_of_eq hn.symm)
      have hloading : (s.calls ++ [⟨call, .loading ⟨none, false⟩ none⟩])[number]? =
          some ⟨call, .loading ⟨none, false⟩ none⟩ := by simp [hn]
      rw [deskOf, deskOf, hloading, hnew]
      rfl
    · rw [deskOf, getElem?_grow hn, deskOf]
  have hplain : System.Conserves
      { s with calls := s.calls ++ [⟨call, .loading ⟨none, false⟩ none⟩] } := by
    rw [Conserves, hdesks]
    exact ⟨h.guards, h.commit⟩
  cases call with
  | tableNames => exact hplain
  | schema table => exact hplain
  | execute statement =>
    have hseen := hplain.see s.calls.length
    have hnone : System.deskOf
        { s with calls := s.calls ++ [⟨.execute statement, .loading ⟨none, false⟩ none⟩] }
        s.calls.length = none := by
      rw [hdesks, deskOf, List.getElem?_eq_none (Nat.le_refl _)]
      rfl
    rw [hnone] at hseen
    exact hseen.beginStatement hgrown hp statement

/-! ## Going on -/

/-- A call returns and gives its locks back. -/
theorem Spared.finish {locks : Locks}
    (h : s.Spared hand (if locks.commit then some .holds else none))
    (hd : ∀ number, ((s.guardAt number).holding.map (·.client)).Nodup)
    (hp : (s.calls[hand]?).map (·.call) = some call) (result : Except Error Reply) :
    (s.finish hand locks result).Conserves := by
  rw [← calls_unlock s hand locks] at hp
  exact (h.unlock hd).putAt hp rfl

/-- A statement that has looked its table up goes on. -/
theorem Spared.afterFinding (h : s.Spared hand none) (hs : s.Seen hand none)
    (hp : (s.calls[hand]?).map (·.call) = some call) (statement : Statement)
    (answer : Except StorageError Document) :
    (s.afterFinding hand statement answer).Conserves := by
  cases answer with
  | error e => exact h.putAt hp rfl
  | ok document =>
    unfold System.afterFinding
    simp only
    split
    · obtain ⟨number, hg⟩ := exists_guardOf?_register s statement.table
      have hregistered := h.register statement.table
      rw [← calls_register s statement.table] at hp
      simp only [hg]
      exact hregistered.askGuard (hs.register statement.table) hp statement number
    · exact h.putAt hp rfl

/-- A call that has read the document goes on. -/
theorem Spared.afterLoading {locks : Locks}
    (h : s.Spared hand (if locks.commit then some .holds else none))
    (hd : ∀ number, ((s.guardAt number).holding.map (·.client)).Nodup)
    (hp : (s.calls[hand]?).map (·.call) = some call) (answer : Except StorageError Document) :
    (s.afterLoading hand call locks answer).Conserves := by
  cases answer with
  | error e => exact h.finish hd hp _
  | ok document =>
    cases call with
    | tableNames => exact h.finish hd hp _
    | schema table => exact h.finish hd hp _
    | execute statement =>
      simp only [System.afterLoading]
      split
      · exact h.finish hd hp _
      · split
        · exact h.finish hd hp _
        · exact h.putAt hp rfl

/-- A call that has written the changed document goes on. -/
theorem Spared.afterStoring {locks : Locks}
    (h : s.Spared hand (if locks.commit then some .holds else none))
    (hd : ∀ number, ((s.guardAt number).holding.map (·.client)).Nodup)
    (hp : (s.calls[hand]?).map (·.call) = some call) (rows : List Row)
    (answer : Except StorageError Unit) :
    (s.afterStoring hand call locks rows answer).Conserves := by
  cases answer with
  | error e => exact h.finish hd hp _
  | ok =>
    simp only [System.afterStoring]
    split
    next c =>
      have hregistered := h.register c.table
      rw [← calls_register s c.table] at hp
      refine hregistered.finish (fun number => ?_) hp _
      rw [guardAt_register]
      exact hd number
    next d =>
      split
      next guard _ =>
        refine (h.retire d.table guard).finish (fun number => ?_) hp _
        rw [System.retire, guardAt_setGuard]
        split
        · exact hd guard
        · exact hd number
      next => exact h.finish hd hp _
    next => exact h.finish hd hp _

/-- A call that goes on to another stage and stays at its desk. -/
theorem Conserves.setStage (h : s.Conserves) {number : Nat} {activity : Activity} {stage : Stage}
    (ha : s.calls[number]? = some activity) (hs : stage.desk = activity.stage.desk) :
    (s.setStage number stage).Conserves := by
  refine (h.see number).putAt (congrArg (Option.map (·.call)) ha) ?_
  rw [deskOf, ha, hs]
  rfl

/-- A read takes place. -/
theorem Conserves.readHappens (h : s.Conserves) {number : Nat} {failure : Option StorageError}
    (hm : s.readHappens number failure = some t) : t.Conserves := by
  unfold System.readHappens at hm
  obtain ⟨⟨call, stage⟩, ha, hm⟩ := Option.bind_eq_some_iff.mp hm
  simp only at hm
  split at hm
  next =>
    cases hm
    exact h.setStage ha rfl
  next locks =>
    cases hm
    exact h.setStage ha rfl
  next => cases hm

/-- A write takes place. -/
theorem Conserves.writeHappens (h : s.Conserves) {number : Nat} {failure : Option StorageError}
    (hm : s.writeHappens number failure = some t) : t.Conserves := by
  unfold System.writeHappens at hm
  obtain ⟨⟨call, stage⟩, ha, hm⟩ := Option.bind_eq_some_iff.mp hm
  simp only at hm
  split at hm
  next locks document rows =>
    cases failure with
    | none =>
      cases hm
      have hstored : System.Conserves { s with stored := document } := ⟨h.guards, h.commit⟩
      exact hstored.setStage ha rfl
    | some e =>
      cases hm
      exact h.setStage ha rfl
  next => cases hm

/-- A call goes on. -/
theorem Conserves.resume (h : s.Conserves) (ho : s.Orderly) {number : Nat}
    (hm : s.resume number = some t) : t.Conserves := by
  unfold System.resume at hm
  obtain ⟨⟨call, stage⟩, ha, hm⟩ := Option.bind_eq_some_iff.mp hm
  have hspared := h.see number
  have hseen := ho.see number
  rw [deskOf, ha] at hspared
  rw [spotOf, ha] at hseen
  have hp : (s.calls[number]?).map (·.call) = some call := congrArg (Option.map (·.call)) ha
  have hd (guard : Nat) := (ho.exclusive guard).distinct
  simp only at hm
  split at hm
  next statement answer =>
    cases hm
    exact Spared.afterFinding hspared hseen hp statement answer
  next statement guard =>
    obtain ⟨progress, _, hm⟩ := Option.bind_eq_some_iff.mp hm
    cases hm
    have hpolled := Spared.setGuard hspared ((h.guards guard).poll number) guard
    exact hpolled.afterGuard hp statement guard progress
  next guard =>
    have hasked : ({ s with commit := (s.commit.poll number).1 } : System).Spared number
        (some (Tended.deskAfter (s.commit.poll number).2)) :=
      ⟨hspared.guards, Tended.poll hspared.commit⟩
    split at hm
    next hg =>
      cases hm
      rw [hg] at hasked
      exact hasked.putAt hp rfl
    next hg =>
      cases hm
      -- The call stands where it stood, so putting it back changes nothing.
      have hstays : s.deskOf number = some .waits := by
        rw [deskOf, ha]
        rfl
      rw [Tended.deskAfter_of_ne hg, ← hstays] at hasked
      have hplain : Permitted { s with commit := (s.commit.poll number).1 }
          (Function.update s.deskOf number (s.deskOf number)) := hasked
      rw [Function.update_eq_self] at hplain
      exact hplain
  next locks answer =>
    cases hm
    exact Spared.afterLoading hspared hd hp answer
  next locks document rows answer =>
    cases hm
    exact Spared.afterStoring hspared hd hp rows answer
  next => cases hm

/-! ## Ending from outside -/

/-- A statement has waited too long for its guard. -/
theorem Conserves.expire (h : s.Conserves) {number : Nat} (hm : s.expire number = some t) :
    t.Conserves := by
  unfold System.expire at hm
  obtain ⟨⟨call, stage⟩, ha, hm⟩ := Option.bind_eq_some_iff.mp hm
  obtain ⟨timeout, _, hm⟩ := Option.bind_eq_some_iff.mp hm
  have hspared := h.see number
  rw [deskOf, ha] at hspared
  simp only at hm
  split at hm
  next statement guard _ =>
    cases hm
    have hleft := Spared.setGuard hspared ((h.guards guard).cancel number) guard
    exact hleft.putAt (congrArg (Option.map (·.call)) ha) rfl
  next => cases hm

/-- A call is given up. -/
theorem Conserves.abort (h : s.Conserves) (ho : s.Orderly) {number : Nat}
    (hm : s.abort number = some t) : t.Conserves := by
  unfold System.abort at hm
  obtain ⟨⟨call, stage⟩, ha, hm⟩ := Option.bind_eq_some_iff.mp hm
  have hspared := h.see number
  rw [deskOf, ha] at hspared
  have hp : (s.calls[number]?).map (·.call) = some call := congrArg (Option.map (·.call)) ha
  have hd (guard : Nat) := (ho.exclusive guard).distinct
  -- A call that holds locks gives them back and is done with.
  have hunlocked {left : System} (locks : Locks)
      (hl : left.Spared number (if locks.commit then some .holds else none))
      (hcalls : left.calls = s.calls) (hguards : left.guards = s.guards) :
      ((left.unlock number locks).setStage number .aborted).Conserves := by
    have hleft : (left.unlock number locks).Spared number none := hl.unlock fun guard => by
      rw [guardAt_congr hguards]
      exact hd guard
    have hthere : ((left.unlock number locks).calls[number]?).map (·.call) = some call := by
      rw [calls_unlock, hcalls]
      exact hp
    exact hleft.putAt hthere rfl
  simp only at hm
  cases stage with
  | finding answer =>
    cases hm
    exact Spared.putAt hspared hp rfl
  | queued guard =>
    cases hm
    have hleft := Spared.setGuard hspared ((h.guards guard).cancel number) guard
    exact hleft.putAt hp rfl
  | committing guard =>
    cases hm
    have hleft : ({ s with commit := s.commit.cancel number } : System).Spared number none :=
      ⟨hspared.guards, Tended.cancel hspared.commit⟩
    exact hunlocked ⟨guard, false⟩ hleft rfl rfl
  | loading locks answer =>
    cases hm
    exact hunlocked locks hspared rfl rfl
  | storing locks document rows answer =>
    cases hm
    exact hunlocked locks hspared rfl rfl
  | finished result => cases hm
  | aborted => cases hm

/-! ## Every system that is reached -/

/-- In a system with no calls every permit is there. -/
theorem conserves_ofDocument (config : Config) (document : Document) (known : List String) :
    (ofDocument config document known).Conserves where
  guards number := guardAt_ofDocument config document known number ▸ Guard.conserves_new
  commit := ⟨rfl, nofun, nofun, fun _ => rfl, [], Semaphore.attends_ofPermits 1, nofun⟩

/-- Every move leaves every permit where it can be found. -/
theorem Conserves.move (h : s.Conserves) (ho : s.Orderly) {move : Move}
    (hm : s.move move = some t) : t.Conserves := by
  cases move with
  | begin call =>
    cases hm
    exact h.begin ho call
  | read number failure => exact h.readHappens hm
  | write number failure => exact h.writeHappens hm
  | resume number => exact h.resume ho hm
  | expire number => exact h.expire hm
  | abort number => exact h.abort ho hm

/-- In a system that is reached no permit is lost. -/
theorem Reached.conserves {config : Config} (h : Reached config s) : s.Conserves := by
  induction h with
  | opened document _ => exact conserves_ofDocument config document _
  | move hr hm ih => exact ih.move hr.orderly hm
  | stored _ document ih => exact ⟨ih.guards, ih.commit⟩

/-- A call that stands nowhere stands at no semaphore and in no guard. -/
theorem Reached.gone {config : Config} (h : Reached config s) (hs : s.spotOf hand = none)
    (hd : s.deskOf hand = none) (number : Nat) :
    hand ∉ s.commit.clients ∧ hand ∉ (s.guardAt number).entry.clients ∧
      hand ∉ (s.guardAt number).exclusion.clients ∧
      (∀ r ∈ (s.guardAt number).waiting, r.client ≠ hand) ∧
      ∀ hold ∈ (s.guardAt number).holding, hold.client ≠ hand := by
  have hseen := h.orderly.see hand
  rw [hs] at hseen
  have hwaiting := hseen.not_waiting number nofun
  obtain ⟨hentry, hexclusion⟩ := (h.conserves.guards number).not_mem_clients hwaiting
  refine ⟨fun hm => ?_, hentry, hexclusion, hwaiting, hseen.not_holding number nofun⟩
  obtain ⟨list, hattends, hlist⟩ := h.conserves.commit.attends
  have hwaits := hlist hand (hattends.subset hm)
  rw [hd] at hwaits
  cases hwaits

end System

end EmbeddedSql.Session
