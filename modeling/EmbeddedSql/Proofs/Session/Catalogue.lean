import EmbeddedSql.Proofs.Session.Known
import EmbeddedSql.Proofs.Session.Solo
import EmbeddedSql.Proofs.Session.Tables

/-!
# The known tables follow the stored ones

A table is stored or removed at one instant and becomes known or is forgotten at a later
one, when the statement that makes or removes it ends. In between the statement is on its
way. As long as nobody else stores anything, a statement that looks a table up finds what is
stored, and no statement is given up on its way, the known tables are the stored ones
but for those of statements on their way.
-/

namespace EmbeddedSql

namespace Document

/-- A document contains a table exactly if it names it. -/
theorem contains_eq_true_iff {document : Document} {name : String} :
    document.contains name = true ↔ name ∈ document.names :=
  mem_names_iff.symm

/-- No two tables have one name. -/
theorem nodup_names (document : Document) : document.names.Nodup :=
  List.pairwise_map.mpr (document.increasing.imp fun {a b} h (he : a.1 = b.1) =>
    String.lt_irrefl b.1 (he ▸ h))

end Document

namespace Session

open Sql Lock

instance (stage : Stage) : Decidable stage.Ended :=
  match stage with
  | .finished result => .isTrue (.finished result)
  | .aborted => .isTrue .aborted
  | .finding _ => .isFalse nofun
  | .queued _ => .isFalse nofun
  | .committing _ => .isFalse nofun
  | .loading _ _ => .isFalse nofun
  | .storing _ _ _ _ => .isFalse nofun

namespace System

instance (s : System) : Decidable s.Quiet :=
  inferInstanceAs (Decidable (∀ activity ∈ s.calls, activity.stage.Ended))

variable {s t : System} {config : Config} {first document : Document} {owners : List String}
  {record : List Entry} {number : Nat} {call : Call} {table : String}

/-- The tables that have a guard. -/
def registered (s : System) : List String :=
  s.known.map Prod.fst

/-- The document that a call has read and is about to look at is the stored one. -/
def fresh (s : System) (number : Nat) : Bool :=
  match s.calls[number]? with
  | some ⟨_, .finding (some (.ok document))⟩ => document = s.stored
  | some ⟨_, .loading _ (some (.ok document))⟩ => document = s.stored
  | _ => true

/-- A call that goes on has read what is stored, and no call is given up. -/
def undisturbed (s : System) : Move → Bool
  | .resume number => s.fresh number
  | .abort _ => false
  | _ => true

/-- Every move of a run is undisturbed. -/
def calm (s : System) : List Move → Bool
  | [] => true
  | move :: rest => s.undisturbed move && ((s.move move).elim true fun t => t.calm rest)

/-- The tables that have a guard are the stored ones, but for tables that are being made
or removed: they are stored or removed already, and the statement has not ended. -/
structure Follows (s : System) : Prop where
  /-- A table that has a guard is stored, or its removal is. -/
  backed : ∀ table ∈ s.registered,
    s.stored.contains table = true ∨ ∃ number, s.removed? number = some table
  /-- A stored table has a guard, or it was just made. -/
  covered : ∀ table, s.stored.contains table = true →
    table ∈ s.registered ∨ ∃ number, s.made? number = some table

/-! ## Statements that have stored a document -/

/-- A call whose write has taken place goes on or is given up. -/
theorem move_of_written {move : Move} (hm : s.move move = some t) {locks : Locks}
    {rows : List Row} {answer : Except StorageError Unit}
    (ha : s.calls[number]? = some ⟨call, .storing locks document rows (some answer)⟩)
    (hc : number = move.caller s) : move = .resume number ∨ move = .abort number := by
  cases step_of_caller hm ha hc with
  | stored answer => exact .inl rfl
  | abandoned _ _ => exact .inr rfl

/-- A statement that has removed a table from the store stands there until it goes on itself.
-/
theorem removed?_move {move : Move} (hm : s.move move = some t) (hu : s.undisturbed move = true)
    (hr : s.removed? number = some table) (hn : move ≠ .resume number) :
    t.removed? number = some table := by
  obtain ⟨drop, locks, document, rows, _, ha⟩ := removed?_eq_some_iff.mp hr
  have hne : number ≠ move.caller s := by
    intro hc
    rcases move_of_written hm ha hc with he | rfl
    · exact hn he
    · cases hu
  rw [removed?, others_move hm hne]
  exact hr

/-- A statement that has stored a new table stands there until it goes on itself. -/
theorem made?_move {move : Move} (hm : s.move move = some t) (hu : s.undisturbed move = true)
    (hr : s.made? number = some table) (hn : move ≠ .resume number) :
    t.made? number = some table := by
  obtain ⟨create, locks, document, rows, _, ha⟩ := made?_eq_some_iff.mp hr
  have hne : number ≠ move.caller s := by
    intro hc
    rcases move_of_written hm ha hc with he | rfl
    · exact hn he
    · cases hu
  rw [made?, others_move hm hne]
  exact hr

/-- A table whose removal was stored is not stored as long as the statement has not ended. -/
theorem Sound.not_contains_of_removed (h : s.Sound first owners record)
    (hr : s.removed? number = some table) : s.stored.contains table = false := by
  obtain ⟨drop, locks, document, rows, rfl, ha⟩ := removed?_eq_some_iff.mp hr
  cases h.accounted ha with
  | storing checked owns locked effect written =>
    rw [written.1]
    exact Statement.contains_of_drop effect

/-- A new table is stored as long as the statement that makes it has not ended. -/
theorem Sound.contains_of_made (h : s.Sound first owners record)
    (hr : s.made? number = some table) : s.stored.contains table = true := by
  obtain ⟨create, locks, document, rows, rfl, ha⟩ := made?_eq_some_iff.mp hr
  cases h.accounted ha with
  | storing checked owns locked effect written =>
    rw [written.1]
    cases Document.stores_of_effect effect with
    | rows table there create drop => exact absurd rfl (create _)
    | created create missing => rw [Document.contains_insert, decide_eq_true rfl, Bool.true_or]

/-- A statement makes a table or removes one, not both. -/
theorem made?_of_removed? (hr : s.removed? number = some table) : s.made? number = none := by
  obtain ⟨drop, locks, document, rows, _, ha⟩ := removed?_eq_some_iff.mp hr
  simp only [made?, ha]

/-! ## What a move does -/

/-- By a write that takes place one table comes to be stored or removed, by a statement that
has not ended then, or the same tables are stored as before. -/
theorem Follows.write (h : s.Follows) (hs : s.Sound first owners record)
    (hm : s.move (.write number none) = some t) (hk : t.known = s.known) : t.Follows := by
  have hwrites : s.writeHappens number none = some t := hm
  obtain ⟨call, locks, changed, rows, ha, hcases⟩ := exists_of_writeHappens hwrites
  have ht := (hcases.resolve_right fun hfailed => hfailed.1 rfl).2
  have hp : (({ s with stored := changed } : System).calls[number]?).map (·.call) = some call :=
    congrArg (Option.map (·.call)) ha
  have hwritten : t.calls[number]? = some ⟨call, .storing locks changed rows (some (.ok ()))⟩ := by
    rw [ht]
    exact getElem?_setStage_self hp _
  have hchanged : t.stored = changed := by
    rw [ht]
    rfl
  cases hs.accounted ha with
  | storing checked owns locked effect written =>
    -- The document that is replaced is the one that the statement has read.
    have hstores := Document.stores_of_effect (written.1 ▸ effect)
    rw [← hchanged] at hstores
    constructor
    · intro table hregistered
      rw [registered, hk] at hregistered
      rcases h.backed table hregistered with hc | ⟨other, hn⟩
      · refine (hstores.contains_or_drop hc).imp_right ?_
        rintro ⟨drop, rfl, hname⟩
        exact ⟨number, removed?_eq_some_iff.mpr ⟨drop, locks, changed, rows, hname, hwritten⟩⟩
      · exact .inr ⟨other, removed?_move hm rfl hn nofun⟩
    · intro table hc
      rcases hstores.contains_or_create hc with hc | ⟨create, rfl, hname⟩
      · rw [registered, hk]
        refine (h.covered table hc).imp_right ?_
        rintro ⟨other, hn⟩
        exact ⟨other, made?_move hm rfl hn nofun⟩
      · exact .inr ⟨number,
          made?_eq_some_iff.mpr ⟨create, locks, changed, rows, hname, hwritten⟩⟩

/-- The tables that have a guard when one has got a guard. -/
theorem mem_registered_register (s : System) (name : String) :
    table ∈ (s.register name).registered ↔ table ∈ s.registered ∨ table = name := by
  unfold System.register
  split
  next guard hg =>
    refine ⟨.inl, fun h => h.elim id ?_⟩
    rintro rfl
    exact List.mem_map_of_mem (mem_known_of_guardOf? hg)
  next => simp [registered]

/-- The known tables still follow the stored ones, which are the same, if a table has a guard
only if it is stored or had one and its removal has not ended, and a stored table keeps its
guard and gets one when the statement ends that has made it. -/
theorem Follows.of_stored (h : s.Follows) {move : Move} (hm : s.move move = some t)
    (hu : s.undisturbed move = true) (hstored : t.stored = s.stored)
    (hb : ∀ table ∈ t.registered, s.stored.contains table = true ∨
      table ∈ s.registered ∧ ∀ number, s.removed? number = some table → move ≠ .resume number)
    (hc : ∀ table, s.stored.contains table = true →
      (table ∈ s.registered → table ∈ t.registered) ∧
        ∀ number, s.made? number = some table → move = .resume number → table ∈ t.registered) :
    t.Follows where
  backed table ht := by
    rw [hstored]
    rcases hb table ht with hcontains | ⟨hregistered, hstays⟩
    · exact .inl hcontains
    · refine (h.backed table hregistered).imp_right ?_
      rintro ⟨number, hn⟩
      exact ⟨number, removed?_move hm hu hn (hstays number hn)⟩
  covered table ht := by
    rw [hstored] at ht
    obtain ⟨hkeeps, hends⟩ := hc table ht
    rcases h.covered table ht with hregistered | ⟨number, hn⟩
    · exact .inl (hkeeps hregistered)
    · by_cases he : move = .resume number
      · exact .inl (hends number hn he)
      · exact .inr ⟨number, made?_move hm hu hn he⟩

/-- The known tables follow the stored ones when a statement has found its table. -/
theorem Follows.found (h : s.Follows) (hm : s.move (.resume number) = some t)
    (hu : s.undisturbed (.resume number) = true) (hstored : t.stored = s.stored)
    {statement : Statement}
    (ha : s.calls[number]? = some ⟨.execute statement, .finding (some (.ok document))⟩)
    (hc : document.contains statement.table = true)
    (hk : t.known = (s.register statement.table).known) : t.Follows := by
  have hfresh : document = s.stored := by simpa [undisturbed, fresh, ha] using hu
  have hregistered {table : String} : table ∈ t.registered ↔
      table ∈ s.registered ∨ table = statement.table := by
    rw [registered, hk]
    exact mem_registered_register s statement.table
  refine h.of_stored hm hu hstored (fun table ht => ?_) fun table _ =>
    ⟨fun ht => hregistered.mpr (.inl ht), ?_⟩
  · rcases hregistered.mp ht with ht | rfl
    · refine .inr ⟨ht, ?_⟩
      rintro other hn he
      cases he
      simp [removed?, ha] at hn
    · exact .inl (hfresh ▸ hc)
  · rintro other hn he
    cases he
    simp [made?, ha] at hn

/-- The known tables follow the stored ones when a statement ends that has made a table. -/
theorem Follows.made (h : s.Follows) (hs : s.Sound first owners record)
    (hm : s.move (.resume number) = some t) (hu : s.undisturbed (.resume number) = true)
    (hstored : t.stored = s.stored) {name : String} (hn : s.made? number = some name)
    (hk : t.known = (s.register name).known) : t.Follows := by
  have hregistered {table : String} : table ∈ t.registered ↔
      table ∈ s.registered ∨ table = name := by
    rw [registered, hk]
    exact mem_registered_register s name
  refine h.of_stored hm hu hstored (fun table ht => ?_) fun table _ =>
    ⟨fun ht => hregistered.mpr (.inl ht), ?_⟩
  · rcases hregistered.mp ht with ht | rfl
    · refine .inr ⟨ht, ?_⟩
      rintro other hremoved he
      cases he
      rw [made?_of_removed? hremoved] at hn
      cases hn
    · exact .inl (hs.contains_of_made hn)
  · rintro other hmade he
    cases he
    rw [hn, Option.some.injEq] at hmade
    exact hregistered.mpr (.inr hmade.symm)

/-- The known tables follow the stored ones when a statement ends that has removed a
table. -/
theorem Follows.removed (h : s.Follows) (ho : s.Orderly) (hs : s.Sound first owners record)
    (hm : s.move (.resume number) = some t) (hu : s.undisturbed (.resume number) = true)
    (hstored : t.stored = s.stored) {name : String} {guard : Nat}
    (hn : s.removed? number = some name) (hentry : (name, guard) ∈ s.known)
    (hk : t.known = s.known.filter fun entry => entry ≠ (name, guard)) : t.Follows := by
  refine h.of_stored hm hu hstored (fun table ht => ?_) fun table hc => ⟨fun ht => ?_, ?_⟩
  · rw [registered, hk] at ht
    obtain ⟨entry, he, rfl⟩ := List.mem_map.mp ht
    obtain ⟨hknown, hne⟩ := List.mem_filter.mp he
    refine .inr ⟨List.mem_map_of_mem hknown, ?_⟩
    rintro other hremoved hmove
    cases hmove
    rw [hn, Option.some.injEq] at hremoved
    -- A table is known by one guard.
    have hsame := List.inj_on_of_nodup_map ho.tables hknown hentry hremoved.symm
    exact of_decide_eq_true hne hsame
  · obtain ⟨entry, he, rfl⟩ := List.mem_map.mp ht
    rw [registered, hk]
    refine List.mem_map_of_mem (List.mem_filter.mpr ⟨he, decide_eq_true ?_⟩)
    rintro rfl
    rw [hs.not_contains_of_removed hn] at hc
    cases hc
  · rintro other hmade he
    cases he
    rw [made?_of_removed? hn] at hmade
    cases hmade

/-- The known tables follow the stored ones after every undisturbed move. -/
theorem Follows.move (h : s.Follows) (hr : Reached config s) (hs : s.Sound first owners record)
    {move : Move} (hm : s.move move = some t) (hu : s.undisturbed move = true) : t.Follows := by
  have hknows := hr.knows hm
  generalize hk : t.known = known at hknows
  by_cases hw : ∃ number, move = .write number none
  · obtain ⟨number, rfl⟩ := hw
    cases hknows with
    | same quiet => exact h.write hs hm hk
  · have hstored := stored_move hm fun number he => hw ⟨number, he⟩
    cases hknows with
    | found stands contains => exact h.found hm hu hstored stands contains hk
    | made makes => exact h.made hs hm hu hstored makes hk
    | removed removes hentry => exact h.removed hr.orderly hs hm hu hstored removes hentry hk
    | same quiet =>
      have hregistered : t.registered = s.registered := congrArg (List.map Prod.fst) hk
      refine h.of_stored hm hu hstored (fun table ht => .inr ⟨hregistered ▸ ht, ?_⟩)
        fun table _ => ⟨fun ht => hregistered ▸ ht, ?_⟩
      · rintro number hn he
        rw [(quiet number he).2] at hn
        cases hn
      · rintro number hn he
        rw [(quiet number he).1] at hn
        cases hn

/-! ## Every undisturbed run -/

/-- When a handle is opened the known tables are the stored ones. -/
theorem follows_ofDocument (config : Config) (document : Document) :
    (ofDocument config document document.names).Follows := by
  have hregistered : (ofDocument config document document.names).registered = document.names :=
    List.zipIdx_map_fst _ _
  constructor
  · intro table ht
    rw [hregistered] at ht
    exact .inl (Document.contains_eq_true_iff.mpr ht)
  · intro table hc
    rw [hregistered]
    exact .inl (Document.contains_eq_true_iff.mp hc)

/-- The known tables follow the stored ones along every run whose moves are undisturbed. -/
theorem Follows.run (h : s.Follows) (hr : Reached config s) (hs : s.Sound first owners record)
    {moves : List Move} (hm : s.run moves = some t) (hc : s.calm moves = true) : t.Follows := by
  induction moves generalizing s owners record with
  | nil =>
    cases hm
    exact h
  | cons move rest ih =>
    obtain ⟨next, hnext, hrest⟩ := Option.bind_eq_some_iff.mp hm
    obtain ⟨more, hsound⟩ := hs.move hnext
    simp only [calm, hnext, Option.elim, Bool.and_eq_true] at hc
    exact ih (h.move hr hs hnext hc.1) (hr.move hnext) hsound hrest hc.2

/-- When all calls have ended, no table is just being made or removed. -/
theorem Quiet.made?_removed? (h : s.Quiet) (number : Nat) :
    s.made? number = none ∧ s.removed? number = none := by
  constructor
  · refine Option.eq_none_iff_forall_ne_some.mpr fun table hn => ?_
    obtain ⟨create, locks, document, rows, _, ha⟩ := made?_eq_some_iff.mp hn
    cases h _ (List.mem_of_getElem? ha)
  · refine Option.eq_none_iff_forall_ne_some.mpr fun table hn => ?_
    obtain ⟨drop, locks, document, rows, _, ha⟩ := removed?_eq_some_iff.mp hn
    cases h _ (List.mem_of_getElem? ha)

/-- When no call is under way the known tables are the stored ones. -/
theorem Follows.perm_names (h : s.Follows) (ho : s.Orderly) (hq : s.Quiet) :
    s.registered.Perm s.stored.names := by
  refine (List.perm_ext_iff_of_nodup ho.tables s.stored.nodup_names).mpr fun table => ?_
  rw [← Document.contains_eq_true_iff]
  constructor
  · intro hregistered
    refine (h.backed table hregistered).resolve_right ?_
    rintro ⟨number, hn⟩
    rw [(hq.made?_removed? number).2] at hn
    cases hn
  · intro hstored
    refine (h.covered table hstored).resolve_right ?_
    rintro ⟨number, hn⟩
    rw [(hq.made?_removed? number).1] at hn
    cases hn

/-- Of the tables that a handle knows only their number is shown. -/
theorem describe_congr (config : Config) {known known' : List String}
    (h : known.length = known'.length) :
    (⟨config, known⟩ : Handle).describe = (⟨config, known'⟩ : Handle).describe := by
  unfold Handle.describe
  simp only [h]

/-- On a handle that is opened on a document and is the only one to store anything, the known
tables follow the stored ones, and they are the same when all calls have ended: the handle
looks as if it had just been opened. -/
theorem follows_of_calm (config : Config) (document : Document) {moves : List Move}
    (hr : (ofDocument config document document.names).run moves = some s)
    (hc : (ofDocument config document document.names).calm moves = true) :
    s.Follows ∧ (s.Quiet → s.registered.Perm s.stored.names ∧
      (⟨s.config, s.registered⟩ : Handle).describe =
        (Handle.ofDocument s.config s.stored).describe) := by
  have hopened : Reached config (ofDocument config document document.names) :=
    .opened document document.nodup_names
  have hfollows := (follows_ofDocument config document).run hopened
    (sound_ofDocument config document document.names) hr hc
  refine ⟨hfollows, fun hq => ?_⟩
  have hperm := hfollows.perm_names (hopened.run hr).orderly hq
  exact ⟨hperm, describe_congr s.config hperm.length_eq⟩

/-- A table is removed and another one is made, at first in vain; an insertion looks the new
table up before it is known. -/
theorem follows_of_calm_of_create :
    let document : Document := ⟨[("t", .ofSchema [⟨"a", .text⟩])], List.pairwise_singleton _ _⟩
    let create : Call := .execute (.create ⟨"u", false, [⟨"b", .text⟩]⟩)
    let moves : List Move :=
      [.begin (.execute (.drop ⟨"t", false⟩)), .begin create, .read 0 none, .resume 0,
        .write 0 none, .resume 0, .resume 1, .read 1 none, .resume 1,
        .write 1 (some .writeRefused), .resume 1, .begin create, .read 2 none, .resume 2,
        .write 2 none, .begin (.execute (.insert ⟨"u", .all, [[.text "x"]], .all⟩)),
        .read 3 none, .resume 3, .resume 2, .resume 3, .read 3 none, .resume 3, .write 3 none,
        .resume 3]
    ∃ s, (ofDocument ⟨none⟩ document document.names).run moves = some s ∧
      (ofDocument ⟨none⟩ document document.names).calm moves = true ∧ s.registered = ["u"] ∧
      s.Follows ∧ s.registered.Perm s.stored.names ∧
      (⟨s.config, s.registered⟩ : Handle).describe =
        (Handle.ofDocument s.config s.stored).describe := by
  intro document create moves
  have hend : ((ofDocument ⟨none⟩ document document.names).run moves).map
      (fun s => (s.registered, decide s.Quiet)) = some (["u"], true) := by
    decide +kernel
  have hcalm : (ofDocument ⟨none⟩ document document.names).calm moves = true := by
    decide +kernel
  obtain ⟨s, hr, hs⟩ := Option.map_eq_some_iff.mp hend
  have hquiet : s.Quiet := of_decide_eq_true (congrArg Prod.snd hs)
  obtain ⟨hfollows, hshown⟩ := follows_of_calm ⟨none⟩ document hr hcalm
  exact ⟨s, hr, hcalm, congrArg Prod.fst hs, hfollows, hshown hquiet⟩

end System

end Session

end EmbeddedSql
