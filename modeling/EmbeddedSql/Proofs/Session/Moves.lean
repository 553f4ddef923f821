import EmbeddedSql.Proofs.Session.Retiring

/-!
# Every move keeps the books

Each move of a system leaves the books in order, with the calls that take effect
by the move added to the record. A move is followed through the functions that
it is made of, from the stage at which it finds its call.
-/

namespace EmbeddedSql.Session.System

open Sql Lock

variable {s t : System} {first : Document} {owners : List String} {record : List Entry}
  {hand : Nat} {call : Call} {carries : Bool}

/-- A move by which nothing takes effect leaves the record as it is. -/
theorem Sound.noEffects (h : t.Sound first owners record) {move : Move}
    (hn : s.effects move = []) : t.Sound first owners (record ++ s.effects move) := by
  rw [hn, List.append_nil]
  exact h

/-! ## Beginning -/

/-- A call whose number is new has not taken effect. -/
theorem Ledger.unlogged_length (h : s.Ledger first owners record) :
    Unlogged record s.calls.length := by
  intro entry he hn
  obtain ⟨activity, ha, _⟩ := Option.map_eq_some_iff.mp (h.numbered entry he)
  have hl := (List.getElem?_eq_some_iff.mp ha).1
  omega

/-- A new call leaves the numbers of the others as they are. -/
theorem getElem?_grow {calls : List Activity} {number : Nat} (h : number ≠ calls.length)
    (activity : Activity) : (calls ++ [activity])[number]? = calls[number]? := by
  by_cases hl : number < calls.length
  · exact List.getElem?_append_left hl
  · have hlength : (calls ++ [activity]).length ≤ number := by
      rw [List.length_append, List.length_singleton]
      omega
    rw [List.getElem?_eq_none hlength, List.getElem?_eq_none (Nat.le_of_not_lt hl)]

/-- A new call is taken in hand. -/
theorem Sound.grow (h : s.Sound first owners record) (call : Call) (stage : Stage) :
    ({ s with calls := s.calls ++ [⟨call, stage⟩] } : System).Held first owners record
      s.calls.length call false := by
  have hold : ∀ {number activity}, number ≠ s.calls.length →
      (s.calls ++ [⟨call, stage⟩])[number]? = some activity →
      s.calls[number]? = some activity := by
    intro number activity hne ha
    rwa [getElem?_grow hne] at ha
  constructor
  · refine ⟨h.chained, ?_, h.distinct, h.owned, h.known, h.closes⟩
    intro entry he
    have hn := h.numbered entry he
    obtain ⟨activity, ha, _⟩ := Option.map_eq_some_iff.mp hn
    have hl := (List.getElem?_eq_some_iff.mp ha).1
    rwa [List.getElem?_append_left hl]
  · simp
  · refine h.commit.mono fun number hn => ?_
    rcases hn with ⟨hne, activity, ha, hc⟩ | hn
    · exact ⟨activity, hold hne ha, hc⟩
    · cases hn.2
  · intro number activity hne ha
    exact (h.accounted (hold hne ha)).change (List.prefix_refl _) (fun _ => rfl) fun _ _ => rfl

/-- A statement that asks for a guard begins with its own guard or by looking its
table up. -/
theorem Held.beginGuarded {statement : Statement}
    (h : s.Held first owners record hand (.execute statement) false) (ha : statement.AsksGuard)
    (hp : Unlogged record hand) :
    (s.beginStatement hand statement).Sound first owners record := by
  cases hg : s.guardOf? statement.table with
  | none =>
    have hbegin : s.beginStatement hand statement = s.setStage hand (.finding none) := by
      cases statement with
      | create statement => cases ha
      | select statement => simp only [beginStatement, hg]
      | insert statement => simp only [beginStatement, hg]
      | update statement => simp only [beginStatement, hg]
      | delete statement => simp only [beginStatement, hg]
      | drop statement => simp only [beginStatement, hg]
    rw [hbegin]
    exact h.putAt rfl (.finding ha hp)
  | some number =>
    have hbegin : s.beginStatement hand statement = s.askGuard hand statement number := by
      cases statement with
      | create statement => cases ha
      | select statement => simp only [beginStatement, hg]
      | insert statement => simp only [beginStatement, hg]
      | update statement => simp only [beginStatement, hg]
      | delete statement => simp only [beginStatement, hg]
      | drop statement => simp only [beginStatement, hg]
    have hk := h.toLedger.guardOf? hg
    rw [hbegin]
    exact h.askGuard ha hk.1 hk.2 hp

/-- Beginning a call. -/
theorem Sound.begin (h : s.Sound first owners record) (call : Call) :
    (s.begin call).Sound first owners (record ++ s.effects (.begin call)) := by
  have hheld := h.grow call (.loading ⟨none, false⟩ none)
  have hp := h.toLedger.unlogged_length
  -- A call that is no statement goes on to read at once, and stores nothing.
  have hplain : (∀ document, call.stores document = false) → call.Checked →
      ({ s with calls := s.calls ++ [⟨call, .loading ⟨none, false⟩ none⟩] } : System).Sound first
        owners record := by
    intro hs hc
    have hready : Ready owners record s.calls.length call none :=
      ⟨hc, fun _ he => (nomatch he), hp⟩
    exact hheld.put (by simp) rfl (hready.loading fun _ => hs)
  cases call with
  | tableNames =>
    have hbegun := hplain (fun _ => rfl) fun _ he => nomatch he
    exact hbegun.noEffects rfl
  | schema table =>
    have hbegun := hplain (fun _ => rfl) fun _ he => nomatch he
    exact hbegun.noEffects rfl
  | execute statement =>
    by_cases ha : statement.AsksGuard
    · have hc := Statement.precheck_of_asksGuard ha
      simp only [effects, hc, List.append_nil]
      exact hheld.beginGuarded ha hp
    · cases statement with
      | create statement =>
        cases hc : (Statement.create statement).precheck with
        | error e =>
          simp only [effects, hc, System.begin, beginStatement]
          -- A statement that fails its check takes effect at once, on any document alike.
          have hout : ∀ document, (Call.execute (.create statement)).outcome document =
              (document, .error e) := by
            intro document
            simp only [Call.outcome, hc]
          have hnoted := hheld.note hp (congrArg Prod.fst (hout s.stored))
          refine hnoted.putAt rfl (.finished fun _ => ?_)
          have hl := logged_note record s.calls.length (.execute (.create statement)) s.stored
          rwa [hout] at hl
        | ok =>
          simp only [effects, hc, System.begin, beginStatement, List.append_nil]
          refine hheld.askCommit ⟨?_, fun _ he => (nomatch he), hp⟩
          intro other he
          cases he
          exact hc
      | select statement => exact absurd trivial ha
      | insert statement => exact absurd trivial ha
      | update statement => exact absurd trivial ha
      | delete statement => exact absurd trivial ha
      | drop statement => exact absurd trivial ha

/-! ## Reading and writing -/

/-- The table that a statement looks up is found or missed. -/
theorem Held.readFinding {statement : Statement}
    (h : s.Held first owners record hand (.execute statement) false)
    (ha : s.calls[hand]? = some ⟨.execute statement, .finding none⟩) (asks : statement.AsksGuard)
    (hp : Unlogged record hand) :
    (s.setStage hand (.finding (some (.ok s.stored)))).Sound first owners
      (record ++ s.effects (.read hand none)) := by
  have heffects : s.effects (.read hand none) =
      if s.stored.contains statement.table then [] else [⟨hand, .execute statement, s.stored⟩] := by
    simp only [effects, ha]
  by_cases hc : s.stored.contains statement.table = true
  · rw [heffects, if_pos hc, List.append_nil]
    refine h.putAt rfl (.finding asks ?_)
    rw [FoundOut, Answered, if_pos hc]
    exact hp
  · rw [heffects, if_neg hc]
    have hout := Call.outcome_of_missing asks (Bool.eq_false_iff.mpr hc)
    have hnoted := h.note hp (congrArg Prod.fst hout)
    refine hnoted.putAt rfl (.finding asks ?_)
    rw [FoundOut, Answered, if_neg hc]
    have hl := logged_note record hand (.execute statement) s.stored
    rwa [hout] at hl

/-- A call reads the document, and takes effect if it has nothing to store. -/
theorem Held.readLoading {locks : Locks}
    (h : s.Held first owners record hand call locks.commit)
    (ha : s.calls[hand]? = some ⟨call, .loading locks none⟩) (checked : call.Checked)
    (owns : call.Owns owners locks.guard)
    (locked : locks.commit = false → ∀ document, call.stores document = false)
    (hp : Unlogged record hand) :
    (s.setStage hand (.loading locks (some (.ok s.stored)))).Sound first owners
      (record ++ s.effects (.read hand none)) := by
  have heffects : s.effects (.read hand none) =
      if call.stores s.stored then [] else [⟨hand, call, s.stored⟩] := by
    simp only [effects, ha]
  have hcurrent : locks.commit = true → ∀ document,
      (some (.ok s.stored) : Option (Except StorageError Document)) = some (.ok document) →
      s.stored = document := fun _ _ he => Except.ok.inj (Option.some.inj he)
  by_cases hc : call.stores s.stored = true
  · rw [heffects, if_pos hc, List.append_nil]
    refine h.putAt rfl (.loading checked owns locked hcurrent ?_)
    rw [ReadOut, Answered, if_pos hc]
    exact hp
  · rw [heffects, if_neg hc]
    have hkeeps := Call.outcome_fst_of_not_stores (Bool.eq_false_iff.mpr hc)
    have hnoted := h.note hp hkeeps
    refine hnoted.putAt rfl (.loading checked owns locked hcurrent ?_)
    rw [ReadOut, Answered, if_neg hc]
    exact logged_note record hand call s.stored

/-- A read that takes place. -/
theorem Sound.readHappens (h : s.Sound first owners record) {number : Nat}
    {failure : Option StorageError} (hm : s.readHappens number failure = some t) :
    t.Sound first owners (record ++ s.effects (.read number failure)) := by
  unfold System.readHappens at hm
  obtain ⟨⟨call, stage⟩, ha, hm⟩ := Option.bind_eq_some_iff.mp hm
  have hheld := h.hold ha
  have hacc := h.accounted ha
  simp only at hm
  split at hm
  next =>
    cases hm
    cases hacc with
    | finding asks found =>
      cases failure with
      | none => exact hheld.readFinding ha asks found
      | some e =>
        refine Sound.noEffects ?_ rfl
        exact hheld.putAt rfl (.finding asks trivial)
  next locks =>
    cases hm
    cases hacc with
    | loading checked owns locked current read =>
      cases failure with
      | none => exact hheld.readLoading ha checked owns locked read
      | some e =>
        refine Sound.noEffects ?_ rfl
        exact hheld.putAt rfl
          (.loading checked owns locked (fun _ _ he => nomatch he) trivial)
  next => cases hm

/-- A write that takes place. -/
theorem Sound.writeHappens (h : s.Sound first owners record) {number : Nat}
    {failure : Option StorageError} (hm : s.writeHappens number failure = some t) :
    t.Sound first owners (record ++ s.effects (.write number failure)) := by
  unfold System.writeHappens at hm
  obtain ⟨⟨call, stage⟩, ha, hm⟩ := Option.bind_eq_some_iff.mp hm
  have hheld := h.hold ha
  have hacc := h.accounted ha
  simp only at hm
  split at hm
  next locks document rows =>
    cases hacc with
    | @storing statement _ before _ _ _ checked owns locked effect written =>
      cases failure with
      | none =>
        cases hm
        have heffects : s.effects (.write number none) =
            [⟨number, .execute statement, s.stored⟩] := by
          simp only [effects, ha]
        have hout := Call.outcome_of_effect checked effect
        rw [← written.1] at hout
        have hstored := hheld.store written.2 (congrArg Prod.fst hout) (.inr locked)
        rw [heffects]
        refine hstored.putAt rfl (.storing checked owns locked effect ⟨rfl, ?_⟩)
        have hl := logged_note record number (.execute statement) s.stored
        rwa [hout] at hl
      | some e =>
        cases hm
        refine Sound.noEffects ?_ rfl
        exact hheld.putAt rfl (.storing checked owns locked effect trivial)
  next => cases hm

/-! ## Going on -/

/-- A statement that has looked its table up goes on. -/
theorem Held.afterFinding {statement : Statement}
    (h : s.Held first owners record hand (.execute statement) false) (asks : statement.AsksGuard)
    {answer : Except StorageError Document} (found : FoundOut record hand statement (some answer)) :
    ∃ owners', (s.afterFinding hand statement answer).Sound first owners' record := by
  cases answer with
  | error e => exact ⟨owners, h.putAt rfl (.finished fun hc => (nomatch hc))⟩
  | ok document =>
    rw [FoundOut, Answered] at found
    rw [System.afterFinding]
    by_cases hc : document.contains statement.table = true
    · rw [if_pos hc] at found ⊢
      obtain ⟨owners', hregistered, _⟩ := h.register statement.table
      obtain ⟨number, hg⟩ := exists_guardOf?_register s statement.table
      have hk := hregistered.toLedger.guardOf? hg
      refine ⟨owners', ?_⟩
      simp only [hg]
      exact hregistered.askGuard asks hk.1 hk.2 found
    · rw [if_neg hc] at found ⊢
      exact ⟨owners, h.putAt rfl (.finished fun _ => found)⟩

/-- A call that has read the document goes on. -/
theorem Held.afterLoading {locks : Locks}
    (h : s.Held first owners record hand call locks.commit)
    {answer : Except StorageError Document} (checked : call.Checked)
    (owns : call.Owns owners locks.guard)
    (locked : locks.commit = false → ∀ document, call.stores document = false)
    (current : locks.commit = true → ∀ document, some answer = some (.ok document) →
      s.stored = document)
    (read : ReadOut record hand call (some answer)) :
    (s.afterLoading hand call locks answer).Sound first owners record := by
  cases answer with
  | error e => exact h.finish fun hc => nomatch hc
  | ok document =>
    rw [ReadOut, Answered] at read
    cases call with
    | tableNames => exact h.finish fun _ => read
    | schema table => exact h.finish fun _ => read
    | execute statement =>
      have hp := checked statement rfl
      simp only [System.afterLoading]
      simp only [Call.stores, Call.outcome, hp] at read
      cases he : statement.effect document with
      | error e =>
        simp only [he] at read ⊢
        exact h.finish fun _ => read
      | ok effect =>
        obtain ⟨rows, store⟩ := effect
        simp only [he] at read ⊢
        cases store with
        | none => exact h.finish fun _ => read
        | some changed =>
          have hstores : (Call.execute statement).stores document = true := by
            simp only [Call.stores, hp, he, Option.isSome_some]
          -- Without the commit lock a call has nothing to store, so this one holds it.
          have hcommit : locks.commit = true := by
            cases hl : locks.commit with
            | true => rfl
            | false =>
              rw [locked hl document] at hstores
              cases hstores
          have hstored := current hcommit document rfl
          exact h.putAt rfl (.storing hp owns hcommit he ⟨hstored, read⟩)

/-- A statement that has removed a table closes the table's guard and returns. -/
theorem Held.afterDrop {statement : Drop} {locks : Locks} {before document : Document}
    {rows : List Row}
    (h : s.Held first owners record hand (.execute (.drop statement)) locks.commit)
    (ha : s.calls[hand]? =
      some ⟨.execute (.drop statement), .storing locks document rows (some (.ok ()))⟩)
    (owns : (Call.execute (.drop statement)).Owns owners locks.guard)
    (effect : (Statement.drop statement).effect before = .ok ⟨rows, some document⟩)
    (hstored : s.stored = document) (hl : Logged record hand (.ok (.rows rows))) :
    (s.afterStoring hand (.execute (.drop statement)) locks rows (.ok ())).Sound first owners
      (record ++ s.effects (.resume hand)) := by
  obtain ⟨guard, commit⟩ := locks
  cases guard with
  | none =>
    have hfinished : (s.finish hand ⟨none, commit⟩ (.ok (.rows rows))).Sound first owners record :=
      h.finish fun _ => hl
    exact hfinished.noEffects (by simp only [effects, ha])
  | some guard =>
    have heffects : s.effects (.resume hand) =
        if s.closedAt guard then [] else s.waitingFor guard := by
      simp only [effects, ha]
    obtain ⟨owner, hcall, ho⟩ := owns guard rfl
    cases hcall
    rw [heffects]
    by_cases hc : s.closedAt guard = true
    · rw [if_pos hc, List.append_nil]
      exact (h.retire_closed ho hc).finish fun _ => hl
    · rw [if_neg hc]
      have hmissing := Statement.contains_of_drop effect
      rw [← hstored] at hmissing
      have hretired := h.retire_open ho hmissing (Bool.eq_false_iff.mpr hc) ha
        fun he => nomatch he
      exact hretired.finish fun _ => hl.append _

/-- A statement that has written the changed document goes on. -/
theorem Held.afterStoring {statement : Statement} {locks : Locks} {before document : Document}
    {rows : List Row} {answer : Except StorageError Unit}
    (h : s.Held first owners record hand (.execute statement) locks.commit)
    (ha : s.calls[hand]? =
      some ⟨.execute statement, .storing locks document rows (some answer)⟩)
    (owns : (Call.execute statement).Owns owners locks.guard)
    (effect : statement.effect before = .ok ⟨rows, some document⟩)
    (written : WrittenOut s record hand before document rows (some answer)) :
    ∃ owners', (s.afterStoring hand (.execute statement) locks rows answer).Sound first owners'
      (record ++ s.effects (.resume hand)) := by
  cases answer with
  | error e =>
    have hfinished : (s.finish hand locks (.error (.storage e))).Sound first owners record :=
      h.finish fun hc => nomatch hc
    exact ⟨owners, hfinished.noEffects (by simp only [effects, ha])⟩
  | ok =>
    have hfinished : (s.finish hand locks (.ok (.rows rows))).Sound first owners record :=
      h.finish fun _ => written.2
    cases statement with
    | create statement =>
      obtain ⟨owners', hregistered, _⟩ := h.register statement.table
      have hknown : ((s.register statement.table).finish hand locks (.ok (.rows rows))).Sound first
          owners' record := hregistered.finish fun _ => written.2
      exact ⟨owners', hknown.noEffects (by simp only [effects, ha])⟩
    | drop statement => exact ⟨owners, h.afterDrop ha owns effect written.1 written.2⟩
    | select statement => exact ⟨owners, hfinished.noEffects (by simp only [effects, ha])⟩
    | insert statement => exact ⟨owners, hfinished.noEffects (by simp only [effects, ha])⟩
    | update statement => exact ⟨owners, hfinished.noEffects (by simp only [effects, ha])⟩
    | delete statement => exact ⟨owners, hfinished.noEffects (by simp only [effects, ha])⟩

/-- A statement that waits for a guard hears from it. -/
theorem Held.afterPoll {statement : Statement} {guard : Nat} {progress : Progress}
    (h : s.Held first owners record hand (.execute statement) false) (asks : statement.AsksGuard)
    (owns : owners[guard]? = some statement.table)
    (waits : if s.closedAt guard then Logged record hand (missing statement)
      else Unlogged record hand)
    (hp : ((s.guardAt guard).poll hand).2 = some progress) :
    ((s.setGuard guard ((s.guardAt guard).poll hand).1).afterGuard hand statement guard
      progress).Sound first owners record := by
  have hcloses := h.closes guard
  have hpolled := Guard.closes_poll hcloses hand
  have hheld := h.setGuard hpolled
  by_cases hc : s.closedAt guard = true
  · rw [if_pos hc] at waits
    rw [hc] at hcloses
    rw [Guard.poll_of_closed hcloses hp]
    exact hheld.putAt rfl (.finished fun _ => waits)
  · rw [if_neg hc] at waits
    rw [Bool.eq_false_iff.mpr hc] at hcloses
    have hopen := (closedAt_setGuard hpolled guard).trans (Bool.eq_false_iff.mpr hc)
    have hf := Guard.poll_ne_failed_of_open hcloses hand
    rw [hp] at hf
    exact hheld.afterGuard asks owns hopen waits fun he => hf (congrArg some he)

/-- A call that goes on. -/
theorem Sound.resume (h : s.Sound first owners record) {number : Nat}
    (hm : s.resume number = some t) :
    ∃ owners', t.Sound first owners' (record ++ s.effects (.resume number)) := by
  unfold System.resume at hm
  obtain ⟨⟨call, stage⟩, ha, hm⟩ := Option.bind_eq_some_iff.mp hm
  have hheld := h.hold ha
  have hacc := h.accounted ha
  simp only at hm hheld hacc
  split at hm
  next statement answer =>
    cases hm
    cases hacc with
    | finding asks found =>
      obtain ⟨owners', hfound⟩ := hheld.afterFinding asks found
      exact ⟨owners', hfound.noEffects (by simp only [effects, ha])⟩
  next statement guard =>
    obtain ⟨progress, hp, hm⟩ := Option.bind_eq_some_iff.mp hm
    cases hm
    cases hacc with
    | queued asks owns waits =>
      -- A call whose guard was closed has taken effect with the closing, so nothing is added
      -- to the record here.
      have hpolled := hheld.afterPoll asks owns waits hp
      exact ⟨owners, hpolled.noEffects (by simp only [effects, ha])⟩
  next guard =>
    refine ⟨owners, Sound.noEffects ?_ (by simp only [effects, ha])⟩
    cases hacc with
    | committing checked owns pending =>
      split at hm
      next hg =>
        cases hm
        -- The call now holds the commit lock alone, so the document cannot change before it
        -- writes.
        have htaken := hheld.commit.poll_granted hg
        have hready : Ready owners record number call guard := ⟨checked, owns, pending⟩
        have hcommit := hheld.takeCommit htaken.1 fun other ho => htaken.2 other (.inl ho)
        exact hcommit.putAt rfl (hready.loading fun he => nomatch he)
      next hg =>
        cases hm
        rw [h.commit.poll_waiting hg]
        exact h
  next locks answer =>
    cases hm
    cases hacc with
    | loading checked owns locked current read =>
      have hloaded := hheld.afterLoading checked owns locked current read
      exact ⟨owners, hloaded.noEffects (by simp only [effects, ha])⟩
  next locks document rows answer =>
    cases hm
    cases hacc with
    | storing checked owns locked effect written =>
      exact hheld.afterStoring ha owns effect written
  next => cases hm

/-! ## Ending from outside -/

/-- A statement that has waited too long for its guard. -/
theorem Sound.expire (h : s.Sound first owners record) {number : Nat}
    (hm : s.expire number = some t) : t.Sound first owners record := by
  unfold System.expire at hm
  obtain ⟨⟨call, stage⟩, ha, hm⟩ := Option.bind_eq_some_iff.mp hm
  obtain ⟨timeout, _, hm⟩ := Option.bind_eq_some_iff.mp hm
  have hheld := h.hold ha
  simp only at hm hheld
  split at hm
  next statement guard _ =>
    cases hm
    have hleft := hheld.setGuard (Guard.closes_cancel (h.closes guard) number)
    exact hleft.putAt rfl (.finished fun hc => nomatch hc)
  next => cases hm

/-- A call that is given up. -/
theorem Sound.abort (h : s.Sound first owners record) {number : Nat}
    (hm : s.abort number = some t) : t.Sound first owners record := by
  unfold System.abort at hm
  obtain ⟨⟨call, stage⟩, ha, hm⟩ := Option.bind_eq_some_iff.mp hm
  have hheld := h.hold ha
  simp only at hm hheld
  have hput : ∀ {left : System}, left.Held first owners record number call false →
      (left.setStage number .aborted).Sound first owners record :=
    fun hleft => hleft.putAt rfl .aborted
  cases stage with
  | finding answer =>
    cases hm
    exact hput hheld
  | queued guard =>
    cases hm
    exact hput (hheld.setGuard (Guard.closes_cancel (h.closes guard) number))
  | committing guard =>
    cases hm
    have hleft : ({ s with commit := s.commit.cancel number } : System).Held first owners record
        number call (Locks.mk guard false).commit :=
      hheld.setCommit (hheld.commit.cancel number)
    exact hput hleft.unlock
  | loading locks answer =>
    cases hm
    exact hput hheld.unlock
  | storing locks document rows answer =>
    cases hm
    exact hput hheld.unlock
  | finished result => cases hm
  | aborted => cases hm

/-! ## Every move -/

/-- Every move keeps the books, and the calls that take effect by it are added to
the record. -/
theorem Sound.move (h : s.Sound first owners record) {move : Move} (hm : s.move move = some t) :
    ∃ owners', t.Sound first owners' (record ++ s.effects move) := by
  cases move with
  | begin call =>
    cases hm
    exact ⟨owners, h.begin call⟩
  | read number failure => exact ⟨owners, h.readHappens hm⟩
  | write number failure => exact ⟨owners, h.writeHappens hm⟩
  | resume number => exact h.resume hm
  | expire number =>
    exact ⟨owners, (h.expire hm).noEffects rfl⟩
  | abort number =>
    exact ⟨owners, (h.abort hm).noEffects rfl⟩

end EmbeddedSql.Session.System
