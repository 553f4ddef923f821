import EmbeddedSql.Error
import EmbeddedSql.Table.Document

/-!
# Backends

A backend keeps one document in a state of its own kind. Reading gives the
document and changes nothing. Writing replaces it or fails, and also a write
that fails may have changed the state.
-/

namespace EmbeddedSql.Storage

/-- How a document is read from and written to a state. -/
structure Backend (σ : Type) where
  /-- The document in a state. -/
  read : σ → Except StorageError Document
  /-- The state after an attempt to write a document, and whether it worked. -/
  write : Document → σ → σ × Except StorageError Unit

/-- The state is the document itself. -/
def memory : Backend Document where
  read document := .ok document
  write document _ := (document, .ok ())

/-- A document in memory that can be told to refuse. -/
structure Switchable where
  /-- The document. -/
  document : Document
  /-- Whether reading is refused. -/
  refusesReads : Bool
  /-- Whether writing is refused. -/
  refusesWrites : Bool
  /-- How many writes have worked. -/
  writes : Nat

/-- The state is a document in memory; a refused write stores nothing. -/
def switchable : Backend Switchable where
  read state := if state.refusesReads then .error .readRefused else .ok state.document
  write document state :=
    if state.refusesWrites then (state, .error .writeRefused)
    else ({ state with document, writes := state.writes + 1 }, .ok ())

end EmbeddedSql.Storage
