import EmbeddedSql.Proofs.Session.Simulation
import EmbeddedSql.Proofs.Storage.Replacing

/-!
# Files and memory answer alike

A handle on a document in a file answers like one on a document in memory, and
goes on to do so when it is dropped and another one is opened on the file. The
file is written anew for every statement that changes something, and what it
decodes to is like the document in memory after every request.
-/

namespace EmbeddedSql

open Json (NumberReading)
open Json.Numeral (withIntegers)

/-! ## What a file decodes to -/

/-- What is consistent could be made by setting columns. -/
theorem Document.Consistent.proper {document : Document} (h : document.Consistent) :
    document.Proper := by
  intro pair hp row hr
  have htable := h pair hp
  have hshape := htable.rows row hr
  constructor
  · have hnames : pair.2.columnNames = row.names := by
      rw [Table.columnNames, Row.names, ← List.forall₂_eq_eq_eq]
      exact List.forall₂_map_left_iff.mpr (List.forall₂_map_right_iff.mpr
        (hshape.imp fun _ _ hc => hc.name.symm))
    exact hnames ▸ htable.distinct
  · intro cell hc
    obtain ⟨column, _, hholds⟩ := Result.exists_of_mem_forall₂ hshape hc
    exact hholds.finite

namespace Storage.JsonFile

variable {double : NumberReading}

/-- The document in memory is consistent and like the one in the file, which can be
written. -/
structure Mirrors (double : NumberReading) (path : Path) (document : Document)
    (system : FileSystem) : Prop where
  /-- The document in memory is consistent. -/
  consistent : document.Consistent
  /-- The file decodes to a document like it. -/
  decodes : ∃ other, read (withIntegers double) path system = .ok other ∧ document.Alike other
  /-- The file can be written. -/
  writable : Writable path system

/-- Memory and a file answer alike. -/
theorem simulates_memory (h : double.ReadsBack) (path : Path) :
    memory.Simulates (backend (withIntegers double) path) (Mirrors double path) where
  read hm := by
    obtain ⟨other, hread, halike⟩ := hm.decodes
    change Result.Alike Eq Document.Alike (.ok _) (read (withIntegers double) path _)
    rw [hread]
    exact .ok halike
  consistent hm hd := Except.ok.inj hd ▸ hm.consistent
  write {_ system document other} hm hd halike := by
    obtain ⟨written, hwrite, hwritable, hcontent⟩ := write_of_writable hm.writable other
    obtain ⟨found, hdecode, hfound⟩ := exists_decode_encode h (hd.of_alike halike).proper
    have hread : read (withIntegers double) path written = .ok found := by
      rw [read, hcontent]
      exact hdecode
    change (Except.ok ()) = (write path other system).2 ∧
      Mirrors double path document (write path other system).1
    rw [hwrite]
    exact ⟨rfl, hd, ⟨found, hread, halike.trans hfound⟩, hwritable⟩

end Storage.JsonFile

/-! ## Handles that come and go -/

/-- A request, and the settings of the handle opened for it if the one before is
dropped. -/
structure Turn where
  /-- The settings of a new handle; none if the handle is kept. -/
  reopen : Option Config
  /-- The request. -/
  request : Request

namespace Handle

variable {σ : Type}

/-- The handle that is kept, or another one that is opened. -/
def handleFor (backend : Storage.Backend σ) (handle : Handle) (store : σ) :
    Option Config → Except Error Handle
  | none => .ok handle
  | some config => open? backend config store

/-- The answers to requests made one after another, each with the store behind it. -/
def answers (backend : Storage.Backend σ) :
    List Turn → Handle → σ → Except Error (List (Answer × σ))
  | [], _, _ => .ok []
  | turn :: rest, handle, store => do
    let handle ← handleFor backend handle store turn.reopen
    let (handle, store, answer) := respond backend handle store turn.request
    let more ← answers backend rest handle store
    .ok ((answer, store) :: more)

variable {double : NumberReading} {path : Storage.Path}

/-- A handle on a file and one in memory that begin with like documents answer alike, and like
documents are stored behind every answer. -/
theorem answers_alike (h : double.ReadsBack) (turns : List Turn) (handle other : Handle)
    {document : Document} {system : Storage.FileSystem}
    (hm : Storage.JsonFile.Mirrors double path document system) :
    ∃ expected found,
      answers Storage.memory (turns.map fun turn => ⟨none, turn.request⟩) handle document =
        .ok expected ∧
      answers (Storage.JsonFile.backend (withIntegers double) path) turns other system =
        .ok found ∧
      List.Forall₂ (fun a b => a.1.Alike b.1 ∧ ∃ decoded,
        Storage.JsonFile.read (withIntegers double) path b.2 = .ok decoded ∧ a.2.Alike decoded)
        expected found := by
  induction turns generalizing handle other document system with
  | nil => exact ⟨[], [], rfl, rfl, .nil⟩
  | cons turn rest ih =>
    obtain ⟨reopen, request⟩ := turn
    obtain ⟨opened, hopened⟩ : ∃ opened, handleFor
        (Storage.JsonFile.backend (withIntegers double) path) other system reopen = .ok opened := by
      cases reopen with
      | none => exact ⟨other, rfl⟩
      | some config =>
        obtain ⟨decoded, hread, _⟩ := hm.decodes
        refine ⟨ofDocument config decoded, ?_⟩
        simp only [handleFor, open?, Storage.JsonFile.backend, hread]
    obtain ⟨hstate, halike⟩ := respond_alike (Storage.JsonFile.simulates_memory h path) request
      handle opened hm
    obtain ⟨expected, found, he, hf, hrest⟩ := ih
      (respond Storage.memory handle document request).1
      (respond (Storage.JsonFile.backend (withIntegers double) path) opened system request).1 hstate
    refine ⟨(_, _) :: expected, (_, _) :: found, ?_, ?_, .cons ⟨halike, hstate.decodes⟩ hrest⟩
    · rw [List.map_cons, answers, handleFor, Result.ok_bind]
      simp only [he, Result.ok_bind]
    · rw [answers, hopened, Result.ok_bind]
      simp only [hf, Result.ok_bind]

/-- A handle on a file answers every request like one in memory, also if it is
dropped and opened again in between, and after every request the file decodes to a
document like the one in memory. Of the file it is asked that it stands for no
tables at first and that one document can be written to it. -/
theorem answers_of_file (h : double.ReadsBack) {system : Storage.FileSystem}
    (hempty : Storage.JsonFile.read (withIntegers double) path system = .ok .empty)
    (hwrite : (Storage.JsonFile.write path .empty system).2 = .ok ())
    (config settings : Config) (turns : List Turn) :
    ∃ handle found expected,
      open? (Storage.JsonFile.backend (withIntegers double) path) config system = .ok handle ∧
      answers (Storage.JsonFile.backend (withIntegers double) path) turns handle system =
        .ok found ∧
      answers Storage.memory (turns.map fun turn => ⟨none, turn.request⟩)
        (ofDocument settings .empty) .empty = .ok expected ∧
      List.Forall₂ (fun a b => a.1.Alike b.1 ∧ ∃ decoded,
        Storage.JsonFile.read (withIntegers double) path b.2 = .ok decoded ∧ a.2.Alike decoded)
        expected found := by
  have hm : Storage.JsonFile.Mirrors double path .empty system :=
    ⟨Document.consistent_empty, ⟨.empty, hempty, .nil⟩, Storage.JsonFile.writable_of_write hwrite⟩
  obtain ⟨expected, found, he, hf, halike⟩ := answers_alike h turns (ofDocument settings .empty)
    (ofDocument config .empty) hm
  refine ⟨ofDocument config .empty, found, expected, ?_, hf, he, halike⟩
  simp only [open?, Storage.JsonFile.backend, hempty]

/-- With the exact reading, a file that is missing in a directory that is missing, and
a handle that is opened again between an insertion and a query. -/
theorem answers_of_file_missing :
    let reading := withIntegers Json.Numeral.exact
    let path : Storage.Path := ⟨false, [.into "data", .into "t.json"]⟩
    let system := Storage.FileSystem.empty ["home"]
    let turns : List Turn :=
      [⟨none, .runAll "CREATE TABLE t (a NUMERIC)".toList⟩,
        ⟨none, .run "INSERT INTO t VALUES ($1)".toList [.number (.neg .zero)]⟩,
        ⟨some .default, .run "SELECT * FROM t".toList []⟩]
    Storage.JsonFile.read reading path system = .ok .empty ∧
      (Storage.JsonFile.write path .empty system).2 = .ok () ∧
      ∃ handle found expected,
        open? (Storage.JsonFile.backend reading path) .default system = .ok handle ∧
        answers (Storage.JsonFile.backend reading path) turns handle system = .ok found ∧
        answers Storage.memory (turns.map fun turn => ⟨none, turn.request⟩)
          (ofDocument .default .empty) .empty = .ok expected ∧
        List.Forall₂ (fun a b => a.1.Alike b.1 ∧ ∃ decoded,
          Storage.JsonFile.read reading path b.2 = .ok decoded ∧ a.2.Alike decoded)
          expected found := by
  intro reading path system turns
  have hmissing : system.contentOf path = .error .notFound := by decide +kernel
  have hempty : Storage.JsonFile.read reading path system = .ok .empty := by
    rw [Storage.JsonFile.read, hmissing]
  have hwrite : (Storage.JsonFile.write ⟨false, [.into "data", .into "t.json"]⟩ .empty
      (Storage.FileSystem.empty ["home"])).2 = .ok () := by rfl
  exact ⟨hempty, hwrite,
    answers_of_file Json.Numeral.readsBack_exact hempty hwrite .default .default turns⟩

end Handle

end EmbeddedSql
