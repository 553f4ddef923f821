import EmbeddedSql.Proofs.Storage.Lookup

/-!
# Writing that stops

A document is written by making directories, by filling a file next to the target byte by byte,
and by moving that file. Only the last step changes what is read. The steps before it make
directories on the way to the target and files beside it: if the way leads only down from where
there is nothing, there is still nothing at its end when some of the directories are made.
-/

namespace EmbeddedSql.Storage

/-! ## Ways that lead down -/

namespace FileSystem

variable {a b : FileSystem} {location goal : Location} {path : Path} {name : String}

/-- Behind a place where there is nothing a path leads only down, by names that can be used. -/
def LeadsDown (system : FileSystem) (path : Path) : Prop :=
  ∀ front back location, Path.moves path.steps = front ++ back →
    system.follow (system.start path) front = .ok location → system.node? location = none →
      ∀ step ∈ back, ∃ name, step = .into name ∧ ¬ 255 < name.utf8ByteSize

/-- A path without moves up and with names that can be used leads down. -/
theorem leadsDown_of_names
    (h : ∀ step ∈ Path.moves path.steps, ∃ name, step = .into name ∧ ¬ 255 < name.utf8ByteSize) :
    a.LeadsDown path := by
  intro front back location hsteps _ _ step hm
  exact h step (hsteps ▸ List.mem_append_right _ hm)

/-- A path leads down if the directory above it is there. -/
theorem leadsDown_of_directory (hp : path.name? = some name)
    (hf : a.follow (a.start path) path.parent.steps = .ok location)
    (hd : a.node? location = some .directory) : a.LeadsDown path := by
  intro front back other hsteps hfront hn step hm
  rw [Path.moves_eq hp] at hsteps
  rcases List.prefix_concat_iff.mp ⟨back, hsteps.symm⟩ with hall | ⟨between, hparent⟩
  · rw [hall, List.self_eq_append_right] at hsteps
    rw [hsteps] at hm
    cases hm
  · rw [← hparent] at hf
    obtain ⟨middle, hmiddle, hrest⟩ := exists_of_follow hf
    obtain rfl : middle = other := Except.ok.inj (hmiddle.symm.trans hfront)
    cases between with
    | nil => rw [Except.ok.inj hrest, hd] at hn; cases hn
    | cons first rest => rw [directory_of_follow hrest] at hn; cases hn

/-- A place stays in a directory when something is put somewhere in a directory. -/
theorem Rooted.put (h : a.Rooted) (hd : a.node? location.dropLast = some .directory)
    (hnot : a.node? location ≠ some .directory) (node : Node) : (a.put location node).Rooted := by
  have hgrows := grows_put hnot node
  intro other hother
  by_cases he : other = location
  · exact hgrows.directory _ (he ▸ hd)
  · rw [node?_put (ne_nil_of_not_directory hnot), if_neg he] at hother
    exact hgrows.directory _ (h other hother)

/-- A file that is put somewhere leaves a way leading down. -/
theorem LeadsDown.put_file (h : a.LeadsDown path) (hne : location ≠ []) (content : List UInt8) :
    (a.put location (.file content)).LeadsDown path := by
  have hback := grows_of_put_file (a := a) hne content
  intro front back other hsteps hf hn
  exact h front back other hsteps (hback.start path ▸ hback.follow hf) (node?_eq_none_of_put hne hn)

/-- One more directory on the way leaves it leading down. -/
theorem LeadsDown.put_directory (h : a.LeadsDown path) {front back : List Step}
    (hsteps : Path.moves path.steps = front ++ back)
    (hf : a.follow (a.start path) front = .ok location) (hn : a.node? location = none) :
    (a.put location .directory).LeadsDown path := by
  have hnot := not_directory_of_missing hn
  have hgrows := grows_put hnot .directory
  intro first rest other hother hfirst hmissing step hm
  rw [hother] at hsteps
  rcases List.append_eq_append_iff.mp hsteps with ⟨between, hfront, _⟩ | ⟨between, _, hback⟩
  · -- The way stopped before the new directory, so nothing has changed for it.
    rw [hfront] at hf
    obtain ⟨middle, hmiddle, _⟩ := exists_of_follow hf
    obtain rfl : middle = other :=
      Except.ok.inj ((hgrows.start path ▸ hgrows.follow hmiddle).symm.trans hfirst)
    exact h first rest middle hother hmiddle
      (node?_eq_none_of_put (ne_nil_of_not_directory hnot) hmissing) step hm
  · exact h front back location (hother.trans hsteps) hf hn step
      (hback ▸ List.mem_append_right _ hm)

/-- One more directory on a way that leads down makes nothing appear at its end. -/
theorem contentOf_put_directory (hr : a.Rooted) (hd : a.LeadsDown path)
    (hp : path.name? = some name) {front back : List Step}
    (hsteps : Path.moves path.steps = front ++ back) (hback : back ≠ [])
    (hf : a.follow (a.start path) front = .ok location) (hn : a.node? location = none) :
    (a.put location .directory).contentOf path = a.contentOf path := by
  cases hu : path.isUsable with
  | false => rw [contentOf_of_not_isUsable hu, contentOf_of_not_isUsable hu]
  | true =>
    obtain ⟨step, rest, rfl⟩ := List.exists_cons_of_ne_nil hback
    obtain ⟨lower, rfl, hshort⟩ := hd front _ location hsteps hf hn _ List.mem_cons_self
    have hnot := not_directory_of_missing hn
    have hgrows := grows_put hnot .directory
    have hlonger : Path.moves path.steps = (front ++ [.into lower]) ++ rest := by
      rw [hsteps, List.append_assoc, List.singleton_append]
    have hmade : (a.put location .directory).node? location = some .directory :=
      node?_put_self (ne_nil_of_not_directory hnot) _
    have hfollow : (a.put location .directory).follow ((a.put location .directory).start path)
        (front ++ [.into lower]) = .ok (location ++ [lower]) := by
      rw [follow_append, ← hgrows.start path, hgrows.follow hf]
      change (a.put location .directory).follow location [.into lower] = _
      rw [follow_into hmade, if_neg hshort, follow]
    have hbelow : a.node? (location ++ [lower]) = none := by
      by_contra hsome
      refine hnot ?_
      have habove := hr _ hsome
      rwa [List.dropLast_concat] at habove
    have hmissing : (a.put location .directory).node? (location ++ [lower]) = none := by
      rw [node?_put (ne_nil_of_not_directory hnot), if_neg (by simp), hbelow]
    rw [contentOf_of_missing hp hu hlonger hfollow hmissing,
      contentOf_of_missing hp hu hsteps hf hn]

end FileSystem

namespace JsonFile

open FileSystem

variable {a b : FileSystem} {path : Path} {name : String} {goal : Location}

/-! ## The file next to the target -/

/-- The path of the file next to the target has the parent of the target and its name with an
ending. -/
theorem temporary_eq (hp : path.name? = some name) :
    temporary path = ⟨path.absolute, path.parent.steps ++ [.into (name ++ ".tmp")]⟩ := by
  rw [temporary, Path.withName, hp]
  rfl

/-- The file next to the target has another name. -/
theorem ne_append_tmp (name : String) : name ≠ name ++ ".tmp" := by
  intro h
  simpa using congrArg String.length h

/-- The file that is written first is in the directory above the target. -/
theorem above_of_locate_temporary (hp : path.name? = some name)
    (h : a.locate (temporary path) = .ok goal) :
    ∃ location, a.Above path (name ++ ".tmp") location ∧ goal = location ++ [name ++ ".tmp"] := by
  rw [locate_of_isUsable (isUsable_of_locate h), temporary_eq hp] at h
  obtain ⟨location, habove, hrest⟩ : ∃ location, a.Above path (name ++ ".tmp") location ∧
      a.follow (location ++ [name ++ ".tmp"]) [] = .ok goal := exists_above h
  exact ⟨location, habove, (Except.ok.inj hrest).symm⟩

/-! ## Before the last step -/

/-- The steps before the last one: a directory is made on the way to the target, or something
is written to the file next to it. -/
inductive Prepares (path : Path) : FileStep → Prop where
  /-- A directory above the target. -/
  | directory {way : Path} (h : way ∈ path.parent.way) : Prepares path (.createDirectory way)
  /-- The file next to the target, with any content. -/
  | file (content : List UInt8) : Prepares path (.placeFile (temporary path) content)

/-- What is read at the target is what was read in the beginning. -/
structure Undisturbed (path : Path) (initial : Except Fault (List UInt8)) (system : FileSystem) :
    Prop where
  /-- Whatever there is, is in a directory. -/
  rooted : system.Rooted
  /-- The way to the target leads down. -/
  leadsDown : system.LeadsDown path
  /-- The content of the target. -/
  contentOf : system.contentOf path = initial

variable {initial : Except Fault (List UInt8)} {step : FileStep}

/-- A step before the last one leaves what is read at the target. -/
theorem Undisturbed.apply (h : Undisturbed path initial a) (hp : path.name? = some name)
    (hs : Prepares path step) (happly : step.apply a = .ok b) : Undisturbed path initial b := by
  cases hs with
  | directory hway =>
    obtain ⟨location, hl, ⟨hn, rfl⟩ | ⟨_, rfl⟩⟩ := createDirectory_cases happly
    · obtain ⟨front, back, rfl, hfront, hparent⟩ := Path.exists_of_mem_way hway
      have hsteps : Path.moves path.steps = front ++ (back ++ [.into name]) := by
        rw [Path.moves_eq hp, hparent, List.append_assoc]
      have hf : a.follow (a.start path) front = .ok location :=
        (locate_of_isUsable (isUsable_of_locate hl)).symm.trans hl
      have hback : back ++ [.into name] ≠ [] :=
        List.append_ne_nil_of_right_ne_nil _ (List.cons_ne_nil _ _)
      have hnot := not_directory_of_missing hn
      exact ⟨h.rooted.put (h.rooted.follow_of_ne_nil hfront hf) hnot _,
        h.leadsDown.put_directory hsteps hf hn,
        (contentOf_put_directory h.rooted h.leadsDown hp hsteps hback hf hn).trans h.contentOf⟩
    · exact h
  | file content =>
    obtain ⟨goal, hl, hnot, rfl⟩ := takesFile_of_placeFile happly
    obtain ⟨location, habove, rfl⟩ := above_of_locate_temporary hp hl
    have hdirectory : a.node? (location ++ [name ++ ".tmp"]).dropLast = some .directory := by
      rw [List.dropLast_concat]
      exact habove.directory
    exact ⟨h.rooted.put hdirectory hnot _, h.leadsDown.put_file (ne_nil_of_not_directory hnot) _,
      (contentOf_put_beside hp (ne_append_tmp name) habove hnot content).trans h.contentOf⟩

/-- Whatever of the steps before the last one is done, and also if one of them fails, what is
read stays the same. -/
theorem Undisturbed.applyAll (h : Undisturbed path initial a) (hp : path.name? = some name)
    {steps : List FileStep} (hs : ∀ step ∈ steps, Prepares path step) :
    Undisturbed path initial (FileStep.applyAll a steps).1 := by
  induction steps generalizing a with
  | nil => exact h
  | cons step rest ih =>
    obtain ⟨hstep, hrest⟩ := List.forall_mem_cons.mp hs
    rw [FileStep.applyAll]
    cases happly : step.apply a with
    | error fault => exact h
    | ok next => exact ih (h.apply hp hstep happly) hrest

/-! ## Writing byte by byte -/

/-- The contents that the file next to the target has while a document is written to it. -/
def contents (document : Document) : List (List UInt8) :=
  (List.range ((encode document).length + 1)).map (encode document).take

/-- The steps of writing a document up to its last one, byte by byte. -/
def preparation (path : Path) (document : Document) : List FileStep :=
  path.parent.way.map .createDirectory ++
    (contents document).map (.placeFile (temporary path))

/-- The file system when writing stops after some of the steps before its last one. -/
def stopped (path : Path) (document : Document) (count : Nat) (system : FileSystem) : FileSystem :=
  (FileStep.applyAll system ((preparation path document).take count)).1

/-- A content replaces whatever was in the file. -/
theorem applyAll_placeFile_left {content : List UInt8} (h : a.placeFile path content = .ok b)
    (other : List UInt8) (rest : List FileStep) :
    FileStep.applyAll b (.placeFile path other :: rest) =
      FileStep.applyAll a (.placeFile path other :: rest) := by
  obtain ⟨c, ha, hb⟩ := placeFile_placeFile h other
  rw [FileStep.applyAll, FileStep.apply, hb, FileStep.applyAll, FileStep.apply, ha]

/-- Of two contents written one after the other only the second counts. -/
theorem applyAll_placeFile_placeFile (system : FileSystem) (path : Path) (first second : List UInt8)
    (rest : List FileStep) :
    FileStep.applyAll system (.placeFile path first :: .placeFile path second :: rest) =
      FileStep.applyAll system (.placeFile path second :: rest) := by
  conv_lhs => rw [FileStep.applyAll, FileStep.apply]
  obtain ⟨fault, hfault⟩ | ⟨location, _, _, hplace⟩ := placeFile_cases system path
  · rw [FileStep.applyAll, FileStep.apply, hfault, hfault]
  · rw [hplace]
    exact applyAll_placeFile_left (hplace first) second rest

/-- Of all contents written one after another only the last one counts. -/
theorem applyAll_placeFiles (system : FileSystem) (path : Path) (front : List (List UInt8))
    (last : List UInt8) (rest : List FileStep) :
    FileStep.applyAll system (front.map (.placeFile path) ++ .placeFile path last :: rest) =
      FileStep.applyAll system (.placeFile path last :: rest) := by
  induction front generalizing system with
  | nil => rfl
  | cons first front ih =>
    rw [← applyAll_placeFile_placeFile system path first, List.map_cons, List.cons_append,
      FileStep.applyAll, FileStep.applyAll]
    cases FileStep.apply system (.placeFile path first) with
    | error fault => rfl
    | ok next => exact ih next

/-- Writing byte by byte and moving the file is writing. -/
theorem applyAll_preparation (system : FileSystem) (path : Path) (document : Document) :
    FileStep.applyAll system (preparation path document ++ [.rename (temporary path) path]) =
      FileStep.applyAll system (plan path document) := by
  have hcontents : contents document =
      (List.range (encode document).length).map (encode document).take ++ [encode document] := by
    rw [contents, List.range_succ, List.map_append, List.map_singleton, List.take_length]
  rw [preparation, plan, List.append_assoc, applyAll_append, applyAll_append, hcontents,
    List.map_append, List.map_singleton, List.append_assoc, List.singleton_append]
  simp only [applyAll_placeFiles]

/-- The steps of writing up to the last one come before it. -/
theorem prepares_of_mem_preparation {document : Document} :
    ∀ step ∈ preparation path document, Prepares path step := by
  intro step hm
  rcases List.mem_append.mp hm with hm | hm
  · obtain ⟨way, hway, rfl⟩ := List.mem_map.mp hm
    exact .directory hway
  · obtain ⟨content, _, rfl⟩ := List.mem_map.mp hm
    exact .file content

/-! ## What is read afterwards -/

variable {reading : Json.NumberReading} {system : FileSystem}

/-- What is read depends on the content only. -/
theorem read_congr (h : a.contentOf path = b.contentOf path) :
    read reading path a = read reading path b := by
  rw [read, read, h]

/-- Writing that stops before its last step changes nothing for those who read. -/
theorem read_stopped (hp : path.name? = some name) (hr : system.Rooted)
    (hd : system.LeadsDown path) (document : Document) (count : Nat) :
    read reading path (stopped path document count system) = read reading path system := by
  have h : Undisturbed path (system.contentOf path) system := ⟨hr, hd, rfl⟩
  exact read_congr (h.applyAll hp fun step hm =>
    prepares_of_mem_preparation step (List.mem_of_mem_take hm)).contentOf

/-- Whether the last step of writing works decides whether writing works. -/
theorem write_cases (path : Path) (document : Document) (system : FileSystem) :
    (∃ fault, write path document system =
        ((FileStep.applyAll system (preparation path document)).1, .error fault)) ∨
      ∃ prepared written, FileStep.applyAll system (preparation path document) = (prepared, none) ∧
        prepared.rename (temporary path) path = .ok written ∧
        write path document system = (written, .ok ()) := by
  rw [write, ← applyAll_preparation, applyAll_append]
  obtain ⟨prepared, outcome⟩ := FileStep.applyAll system (preparation path document)
  cases outcome with
  | some fault => exact .inl ⟨_, rfl⟩
  | none =>
    simp only
    rw [FileStep.applyAll, FileStep.apply]
    cases hr : prepared.rename (temporary path) path with
    | error fault => exact .inl ⟨_, rfl⟩
    | ok written => exact .inr ⟨prepared, written, rfl, hr, rfl⟩

/-- Writing that fails changes nothing for those who read. -/
theorem read_write_of_error (hp : path.name? = some name) (hr : system.Rooted)
    (hd : system.LeadsDown path) {document : Document}
    (h : (write path document system).2 ≠ .ok ()) :
    read reading path (write path document system).1 = read reading path system := by
  obtain ⟨fault, hwrite⟩ | ⟨prepared, written, _, _, hwrite⟩ := write_cases path document system
  · have hi : Undisturbed path (system.contentOf path) system := ⟨hr, hd, rfl⟩
    rw [hwrite]
    exact read_congr (hi.applyAll hp prepares_of_mem_preparation).contentOf
  · exact absurd (congrArg Prod.snd hwrite) h

/-- What was written is read. -/
theorem exists_read_write {double : Json.NumberReading} (h : double.ReadsBack)
    {document : Document} (hd : document.Proper) (hw : (write path document system).2 = .ok ()) :
    ∃ other, read (Json.Numeral.withIntegers double) path (write path document system).1 =
      .ok other ∧ document.Alike other := by
  obtain ⟨written, hwrite, _, hcontent⟩ := write_of_writable (writable_of_write hw) document
  obtain ⟨other, hdecode, halike⟩ := exists_decode_encode h hd
  refine ⟨other, ?_, halike⟩
  rw [hwrite, read, hcontent]
  exact hdecode

/-- When a file is moved to the target there is no file next to it any more. -/
theorem contentOf_temporary_of_rename (hp : path.name? = some name)
    (h : a.rename (temporary path) path = .ok b) :
    b.contentOf (temporary path) = .error .notFound := by
  obtain ⟨start, goal, content, hs, hg, hfile, hnot, rfl⟩ := rename_cases h
  have hstart := not_directory_of_file hfile
  have hgrows := grows_move hstart hnot (.file content)
  obtain ⟨location, habove, rfl⟩ := above_of_locate_temporary hp hs
  obtain ⟨other, hother, rfl⟩ := above_of_locate hp hg
  obtain rfl := habove.eq hother
  have hne : other ++ [name ++ ".tmp"] ≠ other ++ [name] := by
    simp
  rw [contentOf, hgrows.locate hs]
  simp only [node?_put (ne_nil_of_not_directory hnot), if_neg hne,
    node?_remove (ne_nil_of_not_directory hstart), if_true]

/-- Writing that works leaves no file next to the target. -/
theorem contentOf_temporary_of_write (hp : path.name? = some name) {document : Document}
    (h : (write path document system).2 = .ok ()) :
    (write path document system).1.contentOf (temporary path) = .error .notFound := by
  obtain ⟨fault, hwrite⟩ | ⟨prepared, written, _, hrename, hwrite⟩ :=
    write_cases path document system
  · rw [hwrite] at h
    cases h
  · rw [hwrite]
    exact contentOf_temporary_of_rename hp hrename

end JsonFile

end EmbeddedSql.Storage
