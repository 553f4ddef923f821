import EmbeddedSql.Proofs.Storage.Interruption

/-!
# Files that were left behind

A file next to the target that is left from an earlier attempt is in the directory above the
target, so all directories on the way are there, and the next attempt starts with replacing it.
Until then it is not read, and from then on it makes no difference any more. With what holds of
attempts that stop this makes writing all or nothing.
-/

namespace EmbeddedSql.Storage

namespace JsonFile

open FileSystem

variable {a b : FileSystem} {path : Path} {name : String} {goal : Location}
  {content : List UInt8} {reading : Json.NumberReading}

/-! ## Using a file -/

/-- What can be done with the document in a file. -/
inductive Use where
  /-- It is read. -/
  | read
  /-- Another one is written. -/
  | write (document : Document)
  /-- Another one is written, but after some steps the writing stops. -/
  | stop (document : Document) (count : Nat)

/-- What is known after a use. -/
inductive Outcome where
  /-- The document that was found. -/
  | found (result : Except StorageError Document)
  /-- Whether writing worked. -/
  | written (result : Except StorageError Unit)
  /-- Nothing. -/
  | stopped

/-- The file system after a use, and what is known. -/
def Use.apply (reading : Json.NumberReading) (path : Path) (system : FileSystem) :
    Use → FileSystem × Outcome
  | .read => (system, .found (JsonFile.read reading path system))
  | .write document =>
    let (system, result) := JsonFile.write path document system
    (system, .written result)
  | .stop document count => (JsonFile.stopped path document count system, .stopped)

/-- What is known after uses made one after another. -/
def outcomes (reading : Json.NumberReading) (path : Path) : List Use → FileSystem → List Outcome
  | [], _ => []
  | use :: rest, system =>
    (use.apply reading path system).2 ::
      outcomes reading path rest (use.apply reading path system).1

/-! ## The same steps with and without the file -/

/-- Where the file next to the target can be, the directories on the way are there. -/
theorem hasDirectory_of_mem_way (hp : path.name? = some name)
    (h : a.locate (temporary path) = .ok goal) {way : Path} (hw : way ∈ path.parent.way) :
    a.HasDirectory way := by
  have hu := isUsable_of_locate h
  obtain ⟨front, back, rfl, _, hparent⟩ := Path.exists_of_mem_way hw
  have hparent : path.parent.steps = front ++ back := hparent
  rw [locate_of_isUsable hu, temporary_eq hp, hparent, List.append_assoc] at h
  obtain ⟨middle, hf, hd, _⟩ :=
    exists_directory_of_follow h (List.append_ne_nil_of_right_ne_nil _ (List.cons_ne_nil _ _))
  rw [temporary_eq hp, hparent, List.append_assoc] at hu
  have hfront := Path.isUsable_of_sublist (List.sublist_append_left front _) hu
  exact ⟨middle, (locate_of_isUsable hfront).trans hf, hd⟩

/-- With the file next to the target there are no directories left to make. -/
theorem applyAll_directories (hp : path.name? = some name)
    (h : a.placeFile (temporary path) content = .ok b) {ways : List Path}
    (hw : ∀ way ∈ ways, way ∈ path.parent.way) :
    FileStep.applyAll a (ways.map .createDirectory) = (a, none) ∧
      FileStep.applyAll b (ways.map .createDirectory) = (b, none) := by
  obtain ⟨location, hl, hnot, rfl⟩ := takesFile_of_placeFile h
  have hthere : ∀ way ∈ ways, a.HasDirectory way := fun way hm =>
    hasDirectory_of_mem_way hp hl (hw way hm)
  exact ⟨createDirectories_of_hasDirectory hthere, createDirectories_of_hasDirectory
    fun way hm => (hthere way hm).mono (grows_put hnot _)⟩

/-- Two file systems are the same but for the file next to the target. -/
inductive Littered (path : Path) (clean : FileSystem) : FileSystem → Prop where
  /-- There is no difference. -/
  | same : Littered path clean clean
  /-- The second one has a file that may be missing or different in the first one. -/
  | left {content : List UInt8} {littered : FileSystem}
      (h : clean.placeFile (temporary path) content = .ok littered) : Littered path clean littered

/-- A file that was left behind is not noticed by a use, and afterwards it is still the only
difference, if there is one. -/
theorem Littered.apply (h : Littered path a b) (hp : path.name? = some name)
    (reading : Json.NumberReading) (use : Use) :
    (use.apply reading path b).2 = (use.apply reading path a).2 ∧
      Littered path (use.apply reading path a).1 (use.apply reading path b).1 := by
  cases h with
  | same => exact ⟨rfl, .same⟩
  | left h =>
    cases use with
    | read =>
      obtain ⟨goal, hl, hnot, rfl⟩ := takesFile_of_placeFile h
      obtain ⟨location, habove, rfl⟩ := above_of_locate_temporary hp hl
      have hcontent := contentOf_put_beside hp (ne_append_tmp name) habove hnot
      exact ⟨congrArg Outcome.found (read_congr (hcontent _)), .left h⟩
    | write document =>
      obtain ⟨ha, hb⟩ := applyAll_directories hp h fun _ hm => hm
      have hwrite : JsonFile.write path document b = JsonFile.write path document a := by
        rw [JsonFile.write, JsonFile.write, plan, applyAll_append, applyAll_append, ha, hb]
        simp only [applyAll_placeFile_left h]
      simp only [Use.apply, hwrite]
      exact ⟨trivial, .same⟩
    | stop document count =>
      refine ⟨rfl, ?_⟩
      simp only [Use.apply, JsonFile.stopped, preparation, List.take_append, ← List.map_take]
      obtain ⟨ha, hb⟩ := applyAll_directories hp h
        fun _ hm => List.mem_of_mem_take (i := count) hm
      rw [applyAll_append, applyAll_append, ha, hb]
      cases (contents document).take _ with
      | nil => exact .left h
      | cons first rest =>
        simp only [List.map_cons, applyAll_placeFile_left h]
        exact .same

/-- A file that was left behind is never noticed. -/
theorem outcomes_of_littered (hp : path.name? = some name) (uses : List Use)
    (h : Littered path a b) : outcomes reading path uses b = outcomes reading path uses a := by
  induction uses generalizing a b with
  | nil => rfl
  | cons use rest ih =>
    obtain ⟨houtcome, hnext⟩ := h.apply hp reading use
    rw [outcomes, outcomes, houtcome, ih hnext]

/-! ## All or nothing -/

/-- Writing is all or nothing. If the way to the file leads down, then writing that stops
anywhere before its last step, or fails, leaves what is read as it was. Writing that works is
read back, and leaves no file next to the target. A file that is left there anyway, whatever it
holds, is not noticed by any later use. -/
theorem write_all_or_nothing {double : Json.NumberReading} (h : double.ReadsBack)
    (hp : path.name? = some name) {document : Document} (hd : document.Proper)
    (system : FileSystem) :
    (system.Rooted → system.LeadsDown path →
      (∀ count, read (Json.Numeral.withIntegers double) path (stopped path document count system) =
        read (Json.Numeral.withIntegers double) path system) ∧
      ((write path document system).2 ≠ .ok () →
        read (Json.Numeral.withIntegers double) path (write path document system).1 =
          read (Json.Numeral.withIntegers double) path system)) ∧
    ((write path document system).2 = .ok () →
      (∃ other, read (Json.Numeral.withIntegers double) path (write path document system).1 =
        .ok other ∧ document.Alike other) ∧
      (write path document system).1.contentOf (temporary path) = .error .notFound) ∧
    ∀ content littered, system.placeFile (temporary path) content = .ok littered →
      ∀ uses, outcomes (Json.Numeral.withIntegers double) path uses littered =
        outcomes (Json.Numeral.withIntegers double) path uses system := by
  refine ⟨fun hr hl => ⟨read_stopped hp hr hl document, read_write_of_error hp hr hl⟩,
    fun hw => ⟨exists_read_write h hd hw, contentOf_temporary_of_write hp hw⟩, ?_⟩
  intro content littered hleft uses
  exact outcomes_of_littered hp uses (.left hleft)

/-- With the exact reading, a file in a directory that is missing: writing that stops, writing
that works, and a file left behind in the directory made for it. -/
theorem write_all_or_nothing_of_missing :
    let reading := Json.Numeral.withIntegers Json.Numeral.exact
    let path : Path := ⟨false, [.into "data", .into "t.json"]⟩
    let document : Document :=
      ⟨[("t", ⟨[⟨"a", .numeric⟩], [⟨[("a", .number (.neg .zero))]⟩]⟩)], List.pairwise_singleton _ _⟩
    let system := FileSystem.empty ["home"]
    let made := stopped path document 1 system
    path.name? = some "t.json" ∧ document.Proper ∧ system.Rooted ∧ system.LeadsDown path ∧
      (∀ count, read reading path (stopped path document count system) =
        read reading path system) ∧
      (write path document system).2 = .ok () ∧
      (∃ other, read reading path (write path document system).1 = .ok other ∧
        document.Alike other) ∧
      (write path document system).1.contentOf (temporary path) = .error .notFound ∧
      ∃ littered, made.placeFile (temporary path) [0x7b] = .ok littered ∧
        outcomes reading path [.read, .write document, .read] littered =
          outcomes reading path [.read, .write document, .read] made := by
  intro reading path document system made
  have hp : path.name? = some "t.json" := by decide +kernel
  have hproper : document.Proper := by
    simp only [document, Document.Proper, List.forall_mem_singleton]
    exact ⟨by decide, by decide⟩
  have hrooted : system.Rooted := rooted_empty ["home"]
  have hdown : system.LeadsDown path := by
    refine leadsDown_of_names ?_
    have hmoves : Path.moves path.steps = [.into "data", .into "t.json"] := by decide +kernel
    rw [hmoves]
    simp only [List.forall_mem_cons]
    exact ⟨⟨_, rfl, by decide +kernel⟩, ⟨_, rfl, by decide +kernel⟩, List.forall_mem_nil _⟩
  have hempty : (write ⟨false, [.into "data", .into "t.json"]⟩ .empty
      (FileSystem.empty ["home"])).2 = .ok () := by rfl
  obtain ⟨written, hwritten, -⟩ := write_of_writable (writable_of_write hempty) document
  have hwrite : (write path document system).2 = .ok () := congrArg Prod.snd hwritten
  obtain ⟨hkeeps, hworks, -⟩ :=
    write_all_or_nothing Json.Numeral.readsBack_exact hp hproper system
  obtain ⟨-, -, hleft⟩ := write_all_or_nothing Json.Numeral.readsBack_exact hp hproper made
  have hlittered : made.placeFile (temporary path) [0x7b] =
      .ok (made.put ["home", "data", "t.json.tmp"] (.file [0x7b])) := by decide +kernel
  exact ⟨hp, hproper, hrooted, hdown, (hkeeps hrooted hdown).1, hwrite, (hworks hwrite).1,
    (hworks hwrite).2, _, hlittered, hleft _ _ hlittered _⟩

/-- Where the way to a file leads up from a directory that is missing, making the directory
makes the way lead somewhere else: to the directory itself, which cannot be read. -/
theorem read_ne_of_directory_made :
    let reading := Json.Numeral.withIntegers Json.Numeral.exact
    let path : Path := ⟨false, [.into "x", .up, .into "x"]⟩
    let system := FileSystem.empty ["home"]
    path.name? = some "x" ∧ Document.empty.Proper ∧ system.Rooted ∧
      read reading path system = .ok .empty ∧
      read reading path (stopped path .empty 1 system) = .error .fileSystem ∧
      (write path .empty system).2 = .error .fileSystem ∧
      read reading path (write path .empty system).1 = .error .fileSystem := by
  refine ⟨by decide +kernel, List.forall_mem_nil _, rooted_empty ["home"], ?_, ?_, ?_, ?_⟩ <;> rfl

end JsonFile

end EmbeddedSql.Storage
