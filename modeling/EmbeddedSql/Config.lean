import EmbeddedSql.Error

/-!
# Settings of a database handle
-/

namespace EmbeddedSql

/-- The settings of a handle. -/
structure Config where
  /-- How long a statement waits for its table; without it, for ever. -/
  lockTimeout : Option Duration
  deriving DecidableEq, Repr

namespace Config

/-- The settings of a handle that is given none. -/
def default : Config :=
  ⟨none⟩

instance : Inhabited Config := ⟨default⟩

/-- The settings in the notation of diagnostics. -/
def describe (config : Config) : String :=
  let timeout :=
    match config.lockTimeout with
    | none => "None"
    | some d => "Some(" ++ d.describe ++ ")"
  "DatabaseConfig \x7b lock_timeout: " ++ timeout ++ " \x7d"

end Config

end EmbeddedSql
