import EmbeddedSql.Main
import EmbeddedSql.Session.Timeline
import EmbeddedSql.Proofs.Sql.Grammar
import EmbeddedSql.Proofs.Result
import EmbeddedSql.Proofs.Sql.Parsing
import EmbeddedSql.Proofs.Sql.Validation
import EmbeddedSql.Proofs.Table.Consistency
import EmbeddedSql.Proofs.Table.Changes
import EmbeddedSql.Proofs.Session.Effect
import EmbeddedSql.Proofs.Session.Consistency
import EmbeddedSql.Proofs.Lock.Reference
import EmbeddedSql.Proofs.Lock.Refinement
import EmbeddedSql.Proofs.Session.Alone
import EmbeddedSql.Proofs.Session.History
import EmbeddedSql.Proofs.Lock.Closing
import EmbeddedSql.Proofs.Lock.Mutex
import EmbeddedSql.Proofs.Session.Ledger
import EmbeddedSql.Proofs.Session.Held
import EmbeddedSql.Proofs.Session.Retiring
import EmbeddedSql.Proofs.Session.Moves
import EmbeddedSql.Proofs.Session.Course
import EmbeddedSql.Proofs.Session.Linearizability
import EmbeddedSql.Proofs.Number.Rounding
import EmbeddedSql.Proofs.Number.ReadingBack
import EmbeddedSql.Proofs.Text.Classes
import EmbeddedSql.Proofs.Sql.Splitting
import EmbeddedSql.Proofs.Sql.Scanning
import EmbeddedSql.Proofs.Sql.Spelling
import EmbeddedSql.Proofs.Sql.Substitution
import EmbeddedSql.Proofs.Sql.Lockstep
import EmbeddedSql.Proofs.Sql.Layout
import EmbeddedSql.Proofs.Sql.Placeholders
import EmbeddedSql.Proofs.Sql.Binding
import EmbeddedSql.Proofs.Sql.Shape
import EmbeddedSql.Proofs.Sql.Comments
import EmbeddedSql.Proofs.Lock.Exclusion
import EmbeddedSql.Proofs.Session.Guarded
import EmbeddedSql.Proofs.Session.Exclusion
import EmbeddedSql.Proofs.Text.Encoding
import EmbeddedSql.Proofs.Json.Numerals
import EmbeddedSql.Proofs.Json.Layout
import EmbeddedSql.Proofs.Table.Likeness
import EmbeddedSql.Proofs.Json.Documents
import EmbeddedSql.Proofs.Storage.Leftovers
import EmbeddedSql.Proofs.Session.Answers
import EmbeddedSql.Proofs.Session.Simulation
import EmbeddedSql.Proofs.Session.Persistence
import EmbeddedSql.Proofs.Table.Chronicle
import EmbeddedSql.Proofs.Session.Chronicle
import EmbeddedSql.Proofs.Lock.Conservation
import EmbeddedSql.Proofs.Session.Permits
import EmbeddedSql.Proofs.Session.Solo
import EmbeddedSql.Proofs.Session.Failure
import EmbeddedSql.Proofs.Lock.Lines
import EmbeddedSql.Proofs.Session.Turns
import EmbeddedSql.Proofs.Session.Steps
import EmbeddedSql.Proofs.Session.Passage
import EmbeddedSql.Proofs.Session.Known
import EmbeddedSql.Proofs.Session.Dropping
import EmbeddedSql.Proofs.Session.Tables
import EmbeddedSql.Proofs.Session.Reading
import EmbeddedSql.Proofs.Session.Arrival
import EmbeddedSql.Proofs.Session.Progress
import EmbeddedSql.Proofs.Session.Catalogue
import EmbeddedSql.Proofs.Session.Scripts
import EmbeddedSql.Proofs.Lock.Gate
import EmbeddedSql.Proofs.Lock.Late
import EmbeddedSql.Proofs.Lock.Withdrawal
import EmbeddedSql.Proofs.Table.Locality
import EmbeddedSql.Proofs.Session.Batches
import EmbeddedSql.Proofs.Session.Independence
import EmbeddedSql.Proofs.Sql.Admission
import EmbeddedSql.Proofs.Shell.Statements
import EmbeddedSql.Proofs.Sql.DirectReading
import EmbeddedSql.Proofs.Session.Timeouts
import EmbeddedSql.Proofs.Session.Instants
import EmbeddedSql.Proofs.Table.Returning
import EmbeddedSql.Proofs.Table.Updating
import EmbeddedSql.Proofs.Table.Choosing
import EmbeddedSql.Proofs.Sql.SyntaxErrors
import EmbeddedSql.Proofs.Table.Writes
import EmbeddedSql.Proofs.Sql.Accounting
