import EmbeddedSql.Proofs.Json.Documents
import EmbeddedSql.Proofs.Text.Encoding
import EmbeddedSql.Storage.JsonFile

/-!
# Replacing a file

Writing a document makes directories and replaces one file, so all directories
that were there are there afterwards, and every way through them leads to where
it led. If writing works once it works again, and what was written last is the
content of the file, which stands for a document like the one written.
-/

namespace EmbeddedSql.Storage

namespace FileSystem

variable {a b c : FileSystem} {location goal : Location} {node : Node} {path : Path}

/-! ## Single nodes -/

/-- Taking out a location leaves what is found at the others. -/
theorem find?_filter_of_ne {other : Location} (h : other ≠ location)
    (nodes : List (Location × Node)) :
    (nodes.filter fun entry => entry.1 ≠ location).find? (fun entry => entry.1 = other) =
      nodes.find? fun entry => entry.1 = other := by
  rw [List.find?_filter]
  congr 1
  funext entry
  by_cases he : entry.1 = other
  · simp [he, h]
  · simp [he]

/-- What is put at a place is there, and all other places are as they were. -/
theorem node?_put (h : location ≠ []) (node : Node) (other : Location) :
    (a.put location node).node? other = if other = location then some node else a.node? other := by
  by_cases ho : other = location
  · rw [if_pos ho, node?, if_neg (ho ▸ h), put, List.find?_cons_of_pos (by simp [ho])]
    rfl
  · rw [if_neg ho, node?, node?, put, List.find?_cons_of_neg (by simp [Ne.symm ho]),
      find?_filter_of_ne ho]

/-- What is put at a place is there. -/
theorem node?_put_self (h : location ≠ []) (node : Node) :
    (a.put location node).node? location = some node := by
  rw [node?_put h, if_pos rfl]

/-- Where there is nothing after a put there was nothing before. -/
theorem node?_eq_none_of_put {other : Location} (h : location ≠ [])
    (hn : (a.put location node).node? other = none) : a.node? other = none := by
  rw [node?_put h] at hn
  split at hn
  · cases hn
  · exact hn

/-- What is taken from a place is not there, and all other places are as they were. -/
theorem node?_remove (h : location ≠ []) (other : Location) :
    (a.remove location).node? other = if other = location then none else a.node? other := by
  by_cases ho : other = location
  · rw [if_pos ho, node?, if_neg (ho ▸ h), remove, Option.map_eq_none_iff, List.find?_eq_none]
    intro entry hm
    simp only [List.mem_filter, decide_eq_true_eq] at hm
    simpa [ho] using hm.2
  · rw [if_neg ho, node?, node?, remove, find?_filter_of_ne ho]

/-- What is put last stays. -/
theorem put_put (system : FileSystem) (location : Location) (first second : Node) :
    (system.put location first).put location second = system.put location second := by
  simp [put, List.filter_filter]

/-- What is not a directory is not the root. -/
theorem ne_nil_of_not_directory (h : a.node? location ≠ some .directory) : location ≠ [] := by
  rintro rfl
  exact h rfl

/-- Where there is nothing there is no directory. -/
theorem not_directory_of_missing (h : a.node? location = none) :
    a.node? location ≠ some .directory := by
  simp [h]

/-- Where there is a file there is no directory. -/
theorem not_directory_of_file {content : List UInt8}
    (h : a.node? location = some (.file content)) : a.node? location ≠ some .directory := by
  simp [h]

/-! ## Directories that stay -/

/-- Every directory of the first file system is one of the second. -/
structure Grows (a b : FileSystem) : Prop where
  /-- The working directory is the same. -/
  working : a.working = b.working
  /-- A directory stays one. -/
  directory : ∀ location, a.node? location = some .directory → b.node? location = some .directory

/-- Every directory is one of the same file system. -/
theorem Grows.refl (a : FileSystem) : Grows a a :=
  ⟨rfl, fun _ h => h⟩

/-- Directories that stay twice have stayed. -/
theorem Grows.trans (h : Grows a b) (k : Grows b c) : Grows a c :=
  ⟨h.working.trans k.working, fun location hd => k.directory location (h.directory location hd)⟩

/-- Ways through directories that stay lead to where they led. -/
theorem Grows.follow (h : Grows a b) {steps : List Step} (hf : a.follow location steps = .ok goal) :
    b.follow location steps = .ok goal := by
  induction steps generalizing location with
  | nil => exact hf
  | cons step rest ih =>
    unfold FileSystem.follow at hf ⊢
    cases hn : a.node? location with
    | none => rw [hn] at hf; cases hf
    | some node =>
      cases node with
      | file content => rw [hn] at hf; cases hf
      | directory =>
        rw [hn] at hf
        rw [h.directory location hn]
        cases step with
        | stay => exact ih hf
        | up => exact ih hf
        | into name =>
          simp only at hf ⊢
          split at hf
          · cases hf
          next hsize =>
            rw [if_neg hsize]
            exact ih hf

/-- A way that leads to a place leads there still when directories have stayed. -/
theorem Grows.locate (h : Grows a b) (hl : a.locate path = .ok goal) :
    b.locate path = .ok goal := by
  rw [FileSystem.locate] at hl ⊢
  split at hl
  next hu =>
    rw [if_pos hu, ← h.working]
    exact h.follow hl
  next => cases hl

/-- Putting a node where there was no directory leaves all directories. -/
theorem grows_put (h : a.node? location ≠ some .directory) (node : Node) :
    Grows a (a.put location node) := by
  refine ⟨rfl, fun other hd => ?_⟩
  have hne : other ≠ location := fun he => h (he ▸ hd)
  rw [node?_put (ne_nil_of_not_directory h), if_neg hne]
  exact hd

/-- A file that was put makes no new directory. -/
theorem grows_of_put_file (h : location ≠ []) (content : List UInt8) :
    Grows (a.put location (.file content)) a := by
  refine ⟨rfl, fun other hd => ?_⟩
  rw [node?_put h] at hd
  split at hd
  · cases hd
  · exact hd

/-- Taking away what is no directory leaves all directories. -/
theorem grows_remove (h : a.node? location ≠ some .directory) : Grows a (a.remove location) := by
  refine ⟨rfl, fun other hd => ?_⟩
  have hne : other ≠ location := fun he => h (he ▸ hd)
  rw [node?_remove (ne_nil_of_not_directory h), if_neg hne]
  exact hd

/-! ## Making directories -/

/-- There is a directory at a path. -/
def HasDirectory (system : FileSystem) (path : Path) : Prop :=
  ∃ location, system.locate path = .ok location ∧ system.node? location = some .directory

/-- A directory at a path stays one. -/
theorem HasDirectory.mono (h : a.HasDirectory path) (hg : Grows a b) : b.HasDirectory path := by
  obtain ⟨location, hl, hd⟩ := h
  exact ⟨location, hg.locate hl, hg.directory location hd⟩

/-- A directory is made where there is nothing, unless it is there. -/
theorem createDirectory_cases (h : a.createDirectory path = .ok b) :
    ∃ location, a.locate path = .ok location ∧
      (a.node? location = none ∧ b = a.put location .directory ∨
        a.node? location = some .directory ∧ b = a) := by
  rw [createDirectory] at h
  cases hl : a.locate path with
  | error fault => rw [hl] at h; cases h
  | ok location =>
    rw [hl] at h
    simp only at h
    cases hn : a.node? location with
    | none =>
      rw [hn] at h
      exact ⟨location, rfl, .inl ⟨hn, (Except.ok.inj h).symm⟩⟩
    | some node =>
      cases node with
      | file content => rw [hn] at h; cases h
      | directory =>
        rw [hn] at h
        exact ⟨location, rfl, .inr ⟨hn, (Except.ok.inj h).symm⟩⟩

/-- Making a directory keeps all others. -/
theorem createDirectory_spec (h : a.createDirectory path = .ok b) :
    Grows a b ∧ b.HasDirectory path := by
  obtain ⟨location, hl, ⟨hn, rfl⟩ | ⟨hd, rfl⟩⟩ := createDirectory_cases h
  · have hnot := not_directory_of_missing hn
    have hgrows := grows_put hnot .directory
    exact ⟨hgrows, location, hgrows.locate hl, node?_put_self (ne_nil_of_not_directory hnot) _⟩
  · exact ⟨.refl _, location, hl, hd⟩

/-- A directory that is there is not made again. -/
theorem createDirectory_of_hasDirectory (h : a.HasDirectory path) :
    a.createDirectory path = .ok a := by
  obtain ⟨location, hl, hd⟩ := h
  rw [createDirectory, hl]
  simp only [hd]

/-- Making directories one after another keeps all others. -/
theorem createDirectories_spec {paths : List Path}
    (h : FileStep.applyAll a (paths.map .createDirectory) = (b, none)) :
    Grows a b ∧ ∀ path ∈ paths, b.HasDirectory path := by
  induction paths generalizing a with
  | nil =>
    obtain rfl := (Prod.mk.inj h).1
    exact ⟨.refl a, List.forall_mem_nil _⟩
  | cons path rest ih =>
    rw [List.map_cons, FileStep.applyAll, FileStep.apply] at h
    cases hc : a.createDirectory path with
    | error fault => rw [hc] at h; cases h
    | ok c =>
      rw [hc] at h
      obtain ⟨hac, hpath⟩ := createDirectory_spec hc
      obtain ⟨hcb, hrest⟩ := ih h
      exact ⟨hac.trans hcb, List.forall_mem_cons.mpr ⟨hpath.mono hcb, hrest⟩⟩

/-- Directories that are there are not made again. -/
theorem createDirectories_of_hasDirectory {paths : List Path}
    (h : ∀ path ∈ paths, a.HasDirectory path) :
    FileStep.applyAll a (paths.map .createDirectory) = (a, none) := by
  induction paths with
  | nil => rfl
  | cons path rest ih =>
    obtain ⟨hpath, hrest⟩ := List.forall_mem_cons.mp h
    rw [List.map_cons, FileStep.applyAll, FileStep.apply, createDirectory_of_hasDirectory hpath]
    exact ih hrest

/-! ## Placing a file -/

/-- A path leads to a place where there is no directory. -/
def TakesFile (system : FileSystem) (path : Path) : Prop :=
  ∃ location, system.locate path = .ok location ∧ system.node? location ≠ some .directory

/-- Whether a file can be placed, and where, does not depend on its content. -/
theorem placeFile_cases (system : FileSystem) (path : Path) :
    (∃ fault, ∀ content, system.placeFile path content = .error fault) ∨
      ∃ location, system.locate path = .ok location ∧ system.node? location ≠ some .directory ∧
        ∀ content, system.placeFile path content = .ok (system.put location (.file content)) := by
  unfold placeFile
  cases system.locate path with
  | error fault => exact .inl ⟨fault, fun _ => rfl⟩
  | ok location =>
    cases hn : system.node? location with
    | none => exact .inr ⟨location, rfl, by simp [hn], fun _ => by simp [hn]⟩
    | some node =>
      cases node with
      | file content => exact .inr ⟨location, rfl, by simp [hn], fun _ => by simp [hn]⟩
      | directory => exact .inl ⟨.isDirectory, fun _ => by simp [hn]⟩

/-- A file can be made where it was possible to make one. -/
theorem takesFile_of_placeFile {content : List UInt8} (h : a.placeFile path content = .ok b) :
    ∃ location, a.locate path = .ok location ∧ a.node? location ≠ some .directory ∧
      b = a.put location (.file content) := by
  obtain ⟨fault, hfault⟩ | ⟨location, hl, hnot, hplace⟩ := placeFile_cases a path
  · rw [hfault] at h
    cases h
  · exact ⟨location, hl, hnot, (Except.ok.inj ((hplace content).symm.trans h)).symm⟩

/-- A file takes the place of the one that was placed before. -/
theorem placeFile_placeFile {content : List UInt8} (h : a.placeFile path content = .ok b)
    (other : List UInt8) :
    ∃ c, a.placeFile path other = .ok c ∧ b.placeFile path other = .ok c := by
  obtain ⟨fault, hfault⟩ | ⟨location, hl, hnot, hplace⟩ := placeFile_cases a path
  · rw [hfault] at h
    cases h
  · obtain rfl := Except.ok.inj ((hplace content).symm.trans h)
    have hfile : (a.put location (.file content)).node? location = some (.file content) :=
      node?_put_self (ne_nil_of_not_directory hnot) _
    refine ⟨_, hplace other, ?_⟩
    rw [placeFile, (grows_put hnot _).locate hl]
    simp only [hfile, put_put]

/-! ## Moving a file -/

/-- A file is moved from where it was to where there is no directory. -/
theorem rename_cases {source target : Path} (h : a.rename source target = .ok b) :
    ∃ start goal content, a.locate source = .ok start ∧ a.locate target = .ok goal ∧
      a.node? start = some (.file content) ∧ a.node? goal ≠ some .directory ∧
      b = (a.remove start).put goal (.file content) := by
  rw [rename] at h
  cases hs : a.locate source with
  | error fault => rw [hs] at h; cases h
  | ok start =>
    cases ht : a.locate target with
    | error fault => rw [hs, ht] at h; cases h
    | ok goal =>
      rw [hs, ht] at h
      simp only at h
      split at h
      · cases h
      · cases h
      · cases h
      next content hfile hnot =>
        exact ⟨start, goal, content, rfl, rfl, hfile, hnot, (Except.ok.inj h).symm⟩

/-- Moving a file keeps all directories. -/
theorem grows_move {start goal : Location} (hs : a.node? start ≠ some .directory)
    (hg : a.node? goal ≠ some .directory) (node : Node) :
    Grows a ((a.remove start).put goal node) := by
  refine (grows_remove hs).trans (grows_put ?_ node)
  rw [node?_remove (ne_nil_of_not_directory hs)]
  split
  · nofun
  · exact hg

/-- A file that is placed and moved takes the place of the one at the target. -/
theorem rename_placeFile {source target : Path} (hs : a.TakesFile source)
    (ht : a.TakesFile target) (content : List UInt8) :
    ∃ c, FileStep.applyAll a [.placeFile source content, .rename source target] = (c, none) ∧
      Grows a c ∧ c.TakesFile source ∧ c.TakesFile target ∧ c.contentOf target = .ok content := by
  obtain ⟨start, hstart, hsource⟩ := hs
  obtain ⟨goal, hgoal, htarget⟩ := ht
  have hstartNil := ne_nil_of_not_directory hsource
  have hgoalNil := ne_nil_of_not_directory htarget
  have hplaced := grows_put hsource (.file content)
  have hplace : a.placeFile source content = .ok (a.put start (.file content)) := by
    rw [placeFile, hstart]
    simp only
  have hfile : (a.put start (.file content)).node? start = some (.file content) :=
    node?_put_self hstartNil _
  -- The two paths may lead to one place, which the file placed first has taken then.
  have hfree : (a.put start (.file content)).node? goal ≠ some .directory := by
    rw [node?_put hstartNil]
    split
    · nofun
    · exact htarget
  have hrename : (a.put start (.file content)).rename source target =
      .ok (((a.put start (.file content)).remove start).put goal (.file content)) := by
    rw [rename, hplaced.locate hstart, hplaced.locate hgoal]
    simp only [hfile]
  have hnot := not_directory_of_file hfile
  have hgrows : Grows a (((a.put start (.file content)).remove start).put goal (.file content)) :=
    hplaced.trans (grows_move hnot hfree _)
  refine ⟨_, ?_, hgrows, ⟨start, hgrows.locate hstart, ?_⟩, ⟨goal, hgrows.locate hgoal, ?_⟩, ?_⟩
  · rw [FileStep.applyAll, FileStep.apply, hplace]
    simp only
    rw [FileStep.applyAll, FileStep.apply, hrename]
    rfl
  · rw [node?_put hgoalNil, node?_remove hstartNil, if_pos rfl]
    split <;> nofun
  · rw [node?_put_self hgoalNil]
    nofun
  · rw [contentOf, hgrows.locate hgoal]
    simp only [node?_put_self hgoalNil]

/-- The target of a move that worked could take a file. -/
theorem takesFile_of_rename {source target : Path} (h : a.rename source target = .ok b) :
    a.TakesFile target := by
  obtain ⟨_, goal, _, _, ht, _, hnot, _⟩ := rename_cases h
  exact ⟨goal, ht, hnot⟩

end FileSystem

/-! ## Writing a document -/

namespace JsonFile

open FileSystem

variable {path : Path} {system : FileSystem}

/-- A document can be written: the directories can be made, and then neither the
file written first nor the target is a directory. -/
def Writable (path : Path) (system : FileSystem) : Prop :=
  ∃ made, FileStep.applyAll system (path.parent.way.map .createDirectory) = (made, none) ∧
    made.TakesFile (temporary path) ∧ made.TakesFile path

/-- Some steps and then some more are taken one after another, up to the first one that fails.
-/
theorem applyAll_append (system : FileSystem) (front back : List FileStep) :
    FileStep.applyAll system (front ++ back) =
      match FileStep.applyAll system front with
      | (system, none) => FileStep.applyAll system back
      | (system, some fault) => (system, some fault) := by
  induction front generalizing system with
  | nil => rfl
  | cons step rest ih =>
    rw [List.cons_append, FileStep.applyAll, FileStep.applyAll]
    cases step.apply system with
    | error fault => rfl
    | ok next => exact ih next

/-- If one document was written, all can be. -/
theorem writable_of_write {document : Document} (h : (write path document system).2 = .ok ()) :
    Writable path system := by
  rw [write, plan, applyAll_append] at h
  cases hm : FileStep.applyAll system (path.parent.way.map .createDirectory) with
  | mk made fault =>
    rw [hm] at h
    cases fault with
    | some fault => cases h
    | none =>
      simp only at h
      rw [FileStep.applyAll, FileStep.apply] at h
      cases hp : made.placeFile (temporary path) (encode document) with
      | error fault => rw [hp] at h; cases h
      | ok placed =>
        rw [hp] at h
        simp only at h
        rw [FileStep.applyAll, FileStep.apply] at h
        cases hr : placed.rename (temporary path) path with
        | error fault => rw [hr] at h; cases h
        | ok renamed =>
          obtain ⟨start, hl, hn, rfl⟩ := takesFile_of_placeFile hp
          obtain ⟨goal, hg, hd⟩ := takesFile_of_rename hr
          have hback := grows_of_put_file (a := made) (ne_nil_of_not_directory hn) (encode document)
          refine ⟨made, hm, ⟨start, hl, hn⟩, goal, hback.locate hg, fun hdirectory => hd ?_⟩
          exact (grows_put hn _).directory goal hdirectory

/-- Where a document can be written it is written, it is the content of the file
afterwards, and the next one can be written too. -/
theorem write_of_writable (h : Writable path system) (document : Document) :
    ∃ written, write path document system = (written, .ok ()) ∧ Writable path written ∧
      written.contentOf path = .ok (encode document) := by
  obtain ⟨made, hmade, hsource, htarget⟩ := h
  obtain ⟨written, happly, hgrows, hsource, htarget, hcontent⟩ :=
    rename_placeFile hsource htarget (encode document)
  have hdirectories := (createDirectories_spec hmade).2
  refine ⟨written, ?_, ⟨written, ?_, hsource, htarget⟩, hcontent⟩
  · rw [write, plan, applyAll_append, hmade]
    simp only [happly]
  · exact createDirectories_of_hasDirectory fun p hp => (hdirectories p hp).mono hgrows

/-! ## Reading it back -/

/-- The content of a file for a document is not blank. -/
theorem not_all_isBlank_encode (document : Document) : (encode document).all isBlank = false := by
  have hpretty : ∃ rest, Json.pretty document.toJson = '\x7b' :: rest := by
    rw [Json.pretty, Document.toJson]
    cases document.tables with
    | nil => exact ⟨_, rfl⟩
    | cons pair rest => exact ⟨_, rfl⟩
  obtain ⟨rest, hrest⟩ := hpretty
  rw [encode, hrest]
  rfl

/-- What is written to a file is decoded as a document like the one written. -/
theorem exists_decode_encode {double : Json.NumberReading} (h : double.ReadsBack)
    {document : Document} (hd : document.Proper) :
    ∃ other, decode (Json.Numeral.withIntegers double) (encode document) = .ok other ∧
      document.Alike other := by
  obtain ⟨other, hread, halike⟩ := Document.exists_read? h hd (.inr rfl)
  refine ⟨other, ?_, halike⟩
  have hsource : Json.sourceOfBytes (encode document) =
      Json.sourceOfText (Json.pretty document.toJson) := Text.Utf8.decode_encode _
  simp only [decode, not_all_isBlank_encode, Bool.false_eq_true, if_false, hsource, hread]

end JsonFile

end EmbeddedSql.Storage
