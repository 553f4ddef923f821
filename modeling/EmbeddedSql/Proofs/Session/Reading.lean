import EmbeddedSql.Proofs.Session.Passage

/-!
# What a call comes to that has read the document

A call takes effect only while an answer of the store or of a guard is outstanding, so
one that has ended takes no effect any more. While a call holds the commit lock nobody
else stores anything. So the document that a call has read is the stored one when the
call takes effect.
-/

namespace EmbeddedSql.Session

open Sql Lock

/-- Where a call can stand when it takes effect: it waits for a guard, or its read or its
write has not taken place. -/
inductive Stage.Pending : Stage → Prop where
  /-- The table is looked up. -/
  | finding : Pending (.finding none)
  /-- A guard is waited for. -/
  | queued (guard : Nat) : Pending (.queued guard)
  /-- The document is read. -/
  | loading (locks : Locks) : Pending (.loading locks none)
  /-- The changed document is written. -/
  | storing (locks : Locks) (document : Document) (rows : List Row) :
    Pending (.storing locks document rows none)

namespace System

variable {s t : System} {first document : Document} {owners : List String} {record : List Entry}
  {number : Nat} {call : Call} {stage : Stage} {statement : Statement}

/-! ## Who takes effect -/

/-- A call that takes effect begins, or an answer is outstanding. -/
theorem pending_of_mem_effects {move : Move} {entry : Entry} (he : entry ∈ s.effects move) :
    entry.number = s.calls.length ∨
      ∃ call stage, s.calls[entry.number]? = some ⟨call, stage⟩ ∧ stage.Pending := by
  unfold effects at he
  split at he
  next =>
    split at he
    · rw [List.mem_singleton.mp he]
      exact .inl rfl
    · cases he
  next number =>
    split at he
    next statement ha =>
      split at he
      · cases he
      · rw [List.mem_singleton.mp he]
        exact .inr ⟨_, _, ha, .finding⟩
    next call locks ha =>
      split at he
      · cases he
      · rw [List.mem_singleton.mp he]
        exact .inr ⟨_, _, ha, .loading locks⟩
    next => cases he
  next number =>
    split at he
    next call locks document rows ha =>
      rw [List.mem_singleton.mp he]
      exact .inr ⟨_, _, ha, .storing locks document rows⟩
    next => cases he
  next number =>
    split at he
    next guard _ _ _ _ =>
      split at he
      · cases he
      -- When a guard is closed, those who wait for it take effect.
      · obtain ⟨⟨call, stage⟩, ha, hs, _⟩ := mem_waitingFor.mp he
        obtain rfl : stage = .queued guard := hs
        exact .inr ⟨call, _, ha, .queued guard⟩
    next => cases he
  next => cases he

/-- A call with no answer outstanding takes no effect. -/
theorem unlogged_effects (ha : s.calls[number]? = some ⟨call, stage⟩) (hp : ¬ stage.Pending)
    (move : Move) : Unlogged (s.effects move) number := by
  rintro entry he rfl
  rcases pending_of_mem_effects he with hnew | ⟨_, _, hs, hpending⟩
  · have hl := (List.getElem?_eq_some_iff.mp ha).1
    rw [hnew] at hl
    exact Nat.lt_irrefl _ hl
  · rw [ha] at hs
    cases hs
    exact hp hpending

/-- A call that has ended takes no effect any more. -/
theorem unlogged_record_of_ended {moves : List Move} (hr : s.run moves = some t)
    (ha : s.calls[number]? = some ⟨call, stage⟩) (hs : stage.Ended) :
    Unlogged (s.record moves) number := by
  induction moves generalizing s with
  | nil => exact nofun
  | cons move rest ih =>
    obtain ⟨next, hm, hrest⟩ := Option.bind_eq_some_iff.mp hr
    have hpending : ¬ stage.Pending := by
      cases hs with
      | finished result => exact nofun
      | aborted => exact nofun
    have hthere := (others_move hm (ne_caller_of_ended hm ha hs)).trans ha
    simp only [System.record, hm, Option.elim]
    exact (unlogged_effects ha hpending move).append (ih hrest hthere)

/-! ## The document of a call that has read -/

/-- Nobody else stores anything while a call holds the commit lock. -/
theorem Sound.stored_of_commits (h : s.Sound first owners record) {move : Move}
    (hm : s.move move = some t) (hc : s.Commits number) (hne : number ≠ move.caller s) :
    t.stored = s.stored := by
  by_cases hw : ∃ writer, move = .write writer none
  · obtain ⟨writer, rfl⟩ := hw
    have hm : s.writeHappens writer none = some t := hm
    obtain ⟨call, locks, document, rows, ha, _⟩ := exists_of_writeHappens hm
    cases h.accounted ha with
    | storing checked owns locked effect written =>
      have hwrites : s.Commits writer := ⟨_, ha, locked⟩
      exact absurd (h.commit.alone number writer hc hwrites) hne
  · exact stored_move hm fun writer he => hw ⟨writer, he⟩

/-- Where a statement can stand whose read has taken place: what it still stores takes the
place of the document that it has read. -/
inductive BasedOn (s : System) (document : Document) : Stage → Prop where
  /-- The read has failed. -/
  | failed (locks : Locks) (e : StorageError) :
    BasedOn s document (.loading locks (some (.error e)))
  /-- The document was read. -/
  | read (locks : Locks) : BasedOn s document (.loading locks (some (.ok document)))
  /-- The changed document is written. -/
  | writes (locks : Locks) (changed : Document) (rows : List Row) (h : s.stored = document) :
    BasedOn s document (.storing locks changed rows none)
  /-- The write has taken place or failed. -/
  | written (locks : Locks) (changed : Document) (rows : List Row)
    (answer : Except StorageError Unit) :
    BasedOn s document (.storing locks changed rows (some answer))
  /-- The statement has ended. -/
  | ended {stage : Stage} (h : stage.Ended) : BasedOn s document stage

/-- A statement that goes on with what it has read returns or stores a changed document. -/
theorem basedOn_afterLoading (hp : (s.calls[number]?).map (·.call) = some (.execute statement))
    (hc : statement.precheck = .ok ()) (locks : Locks) (answer : Except StorageError Document)
    (hs : ∀ read, answer = .ok read → (Call.execute statement).stores read = true →
      s.stored = document) :
    ∃ stage, (s.afterLoading number (.execute statement) locks answer).calls[number]? =
      some ⟨.execute statement, stage⟩ ∧
      (s.afterLoading number (.execute statement) locks answer).BasedOn document stage := by
  rcases afterLoading_cases s number (.execute statement) locks answer with ⟨result, he⟩ |
    ⟨statement', read, effect, changed, hcall, hread, heffect, hchanged, he⟩
  · rw [he]
    exact ⟨_, getElem?_finish hp locks result, .ended (.finished result)⟩
  · cases hcall
    rw [he]
    refine ⟨_, getElem?_setStage_self hp _, .writes locks changed effect.rows ?_⟩
    exact hs read hread (by simp [Call.stores, hc, heffect, hchanged])

/-- A step of a statement that has read leaves it based on the document that it has read. -/
theorem Sound.basedOn_of_caller (h : s.Sound first owners record) {move : Move}
    (hm : s.move move = some t) (ha : s.calls[number]? = some ⟨.execute statement, stage⟩)
    (hb : s.BasedOn document stage) (hc : number = move.caller s) :
    ∃ stage', t.calls[number]? = some ⟨.execute statement, stage'⟩ ∧
      t.BasedOn document stage' := by
  have hp : (s.calls[number]?).map (·.call) = some (.execute statement) :=
    congrArg (Option.map (·.call)) ha
  have hstep := step_of_caller hm ha hc
  cases hb with
  | failed locks e =>
    cases hstep with
    | loaded answer =>
      cases h.accounted ha with
      | loading checked owns locked current read =>
        exact basedOn_afterLoading hp (checked statement rfl) locks _ nofun
    | abandoned hleft _ =>
      exact ⟨_, getElem?_setStage_self ((hleft.same number).trans hp) _, .ended .aborted⟩
  | read locks =>
    cases hstep with
    | loaded answer =>
      cases h.accounted ha with
      | loading checked owns locked current read =>
        refine basedOn_afterLoading hp (checked statement rfl) locks _ fun read hread hstores => ?_
        cases hread
        -- A statement with something to store has read under the commit lock.
        have hcommit : locks.commit = true := by
          by_contra hno
          rw [locked (Bool.eq_false_iff.mpr hno) document] at hstores
          cases hstores
        exact current hcommit document rfl
    | abandoned hleft _ =>
      exact ⟨_, getElem?_setStage_self ((hleft.same number).trans hp) _, .ended .aborted⟩
  | writes locks changed rows hs =>
    cases hstep with
    | written =>
      exact ⟨_, getElem?_setStage_self (s := { s with stored := changed }) hp _,
        .written locks changed rows _⟩
    | failed e => exact ⟨_, getElem?_setStage_self hp _, .written locks changed rows _⟩
    | abandoned hleft _ =>
      exact ⟨_, getElem?_setStage_self ((hleft.same number).trans hp) _, .ended .aborted⟩
  | written locks changed rows answer =>
    cases hstep with
    | stored answer =>
      obtain ⟨result, hresult⟩ := ended_afterStoring hp locks rows answer
      exact ⟨_, hresult, .ended (.finished result)⟩
    | abandoned hleft _ =>
      exact ⟨_, getElem?_setStage_self ((hleft.same number).trans hp) _, .ended .aborted⟩
  | ended he => exact absurd hc (ne_caller_of_ended hm ha he)

/-- A statement that has read stays based on the document that it has read. -/
theorem Sound.basedOn_move (h : s.Sound first owners record) {move : Move}
    (hm : s.move move = some t) (ha : s.calls[number]? = some ⟨.execute statement, stage⟩)
    (hb : s.BasedOn document stage) :
    ∃ stage', t.calls[number]? = some ⟨.execute statement, stage'⟩ ∧
      t.BasedOn document stage' := by
  by_cases hc : number = move.caller s
  · exact h.basedOn_of_caller hm ha hb hc
  · have hthere := (others_move hm hc).trans ha
    refine ⟨stage, hthere, ?_⟩
    cases hb with
    | failed locks e => exact .failed locks e
    | read locks => exact .read locks
    | writes locks changed rows hs =>
      cases h.accounted ha with
      | storing checked owns locked effect written =>
        have hcommits : s.Commits number := ⟨_, ha, locked⟩
        exact .writes locks changed rows ((h.stored_of_commits hm hcommits hc).trans hs)
    | written locks changed rows answer => exact .written locks changed rows answer
    | ended he => exact .ended he

/-- A statement that has read takes effect on the document that it has read. -/
theorem Sound.before_of_basedOn (h : s.Sound first owners record) {moves : List Move}
    (hr : s.run moves = some t) (ha : s.calls[number]? = some ⟨.execute statement, stage⟩)
    (hb : s.BasedOn document stage) :
    ∀ entry ∈ s.record moves, entry.number = number → entry.before = document := by
  induction moves generalizing s owners record stage with
  | nil => exact nofun
  | cons move rest ih =>
    obtain ⟨next, hm, hrest⟩ := Option.bind_eq_some_iff.mp hr
    obtain ⟨more, hnext⟩ := h.move hm
    obtain ⟨stage', hstage, hbased⟩ := h.basedOn_move hm ha hb
    intro entry he hn
    simp only [System.record, hm, Option.elim] at he
    rcases List.mem_append.mp he with he | he
    · by_cases hpending : stage.Pending
      · cases hb with
        | writes locks changed rows hs => exact (before_of_mem_effects he).trans hs
        | ended hended =>
          cases hended with
          | finished result => cases hpending
          | aborted => cases hpending
        | _ => cases hpending
      · exact absurd hn (unlogged_effects ha hpending move entry he)
    · exact ih hnext hrest hstage hbased entry he hn

/-- A statement takes effect on the document that was stored when it read. -/
theorem Sound.before_of_read (h : s.Sound first owners record) {rest : List Move}
    {failure : Option StorageError} {locks : Locks}
    (hr : s.run (.read number failure :: rest) = some t)
    (ha : s.calls[number]? = some ⟨.execute statement, .loading locks none⟩) :
    ∀ entry ∈ s.record (.read number failure :: rest), entry.number = number →
      entry.before = s.stored := by
  obtain ⟨next, hm, hrest⟩ := Option.bind_eq_some_iff.mp hr
  obtain ⟨more, hnext⟩ := h.move hm
  have hp : (s.calls[number]?).map (·.call) = some (.execute statement) :=
    congrArg (Option.map (·.call)) ha
  have hread : ∃ stage, next.calls[number]? = some ⟨.execute statement, stage⟩ ∧
      next.BasedOn s.stored stage := by
    cases step_of_caller hm ha rfl with
    | read failure =>
      refine ⟨_, getElem?_setStage_self hp _, ?_⟩
      cases failure with
      | none => exact .read locks
      | some e => exact .failed locks e
  obtain ⟨stage, hstage, hbased⟩ := hread
  intro entry he hn
  simp only [System.record, hm, Option.elim] at he
  rcases List.mem_append.mp he with he | he
  · exact before_of_mem_effects he
  · exact hnext.before_of_basedOn hrest hstage hbased entry he hn

end System

end EmbeddedSql.Session
