import EmbeddedSql.Config

/-!
# Arguments of the shell

The arguments are read from left to right. A setting's value stands in the next
argument or behind an equals sign, and each setting is given at most once.
-/

namespace EmbeddedSql.Shell

/-- How much is logged. -/
inductive Verbosity where
  /-- Errors only. -/
  | error
  /-- Also warnings. -/
  | warn
  /-- Also what is worth knowing. -/
  | info
  /-- Also what helps to find faults. -/
  | debug
  /-- Everything. -/
  | trace
  deriving DecidableEq, Repr

namespace Verbosity

/-- All degrees, the least first. -/
def all : List Verbosity :=
  [.error, .warn, .info, .debug, .trace]

/-- The name of a degree. -/
def name : Verbosity → String
  | .error => "error"
  | .warn => "warn"
  | .info => "info"
  | .debug => "debug"
  | .trace => "trace"

end Verbosity

/-- The settings of a shell. -/
structure Options where
  /-- The file that holds the document; without it, nothing is kept. -/
  data : Option String
  /-- How long a statement waits for its table. -/
  lockTimeout : Option Duration
  /-- How much is logged. -/
  verbosity : Option Verbosity
  deriving DecidableEq, Repr

/-- The settings of a shell that is given none. -/
def Options.default : Options :=
  ⟨none, none, none⟩

/-- A setting that takes a value. -/
inductive Setting where
  /-- The file of the document. -/
  | data
  /-- The longest wait in milliseconds. -/
  | lockTimeout
  /-- The verbosity. -/
  | verbosity
  deriving DecidableEq, Repr

/-- What the arguments ask for. -/
inductive Invocation where
  /-- A shell with settings. -/
  | start (options : Options)
  /-- The version. -/
  | version
  /-- An overview of the arguments. -/
  | help
  deriving DecidableEq, Repr

/-- Why arguments cannot be read. -/
inductive ArgumentError where
  /-- There is no use for an argument. -/
  | unexpected (argument : String)
  /-- A setting has no value. -/
  | missingValue (setting : Setting)
  /-- The value is none of the setting. -/
  | invalidValue (setting : Setting) (value : String)
  /-- A setting is given twice. -/
  | repeated (setting : Setting)
  deriving DecidableEq, Repr

namespace Setting

/-- The name of a setting. -/
def name : Setting → String
  | .data => "data"
  | .lockTimeout => "lock-timeout-ms"
  | .verbosity => "log-level"

/-- All settings. -/
def all : List Setting :=
  [.data, .lockTimeout, .verbosity]

/-- The setting with a name. -/
def ofName? (name : List Char) : Option Setting :=
  all.find? fun setting => setting.name.toList = name

end Setting

/-- The number that decimal digits denote, with or without a plus sign, if it
fits into 64 bits. -/
def readNumber? (text : List Char) : Option Nat :=
  let digits :=
    match text with
    | '+' :: rest => rest
    | _ => text
  if digits ≠ [] ∧ digits.all Char.isDigit then
    let number := digits.foldl (fun n c => 10 * n + (c.toNat - '0'.toNat)) 0
    if number < Nat.pow 2 64 then some number else none
  else none

/-- The verbosity that is given by its name in any case or by its number,
counted from one. -/
def readVerbosity? (text : String) : Option Verbosity :=
  match readNumber? text.toList with
  | some 0 => none
  | some (n + 1) => Verbosity.all[n]?
  | none => Verbosity.all.find? fun degree => degree.name = text.toLower

/-- The settings with one more value. -/
def Options.set (options : Options) (setting : Setting) (value : String) :
    Except ArgumentError Options :=
  match setting with
  | .data =>
    if options.data.isSome then .error (.repeated setting)
    else if value = "" then .error (.invalidValue setting value)
    else .ok { options with data := some value }
  | .lockTimeout =>
    if options.lockTimeout.isSome then .error (.repeated setting)
    else
      match readNumber? value.toList with
      | some n => .ok { options with lockTimeout := some ⟨n⟩ }
      | none => .error (.invalidValue setting value)
  | .verbosity =>
    if options.verbosity.isSome then .error (.repeated setting)
    else
      match readVerbosity? value with
      | some degree => .ok { options with verbosity := some degree }
      | none => .error (.invalidValue setting value)

/-- What an argument looks like. -/
inductive Shape where
  /-- Two dashes, behind which there are no settings. -/
  | separator
  /-- Two dashes and a name, and a value if there is an equals sign. -/
  | long (name : List Char) (value : Option (List Char))
  /-- A dash and a letter, whatever follows. -/
  | short (letter : Char)
  /-- Anything else, a lone dash included. -/
  | plain
  deriving DecidableEq, Repr

/-- The shape of an argument. -/
def Shape.of : List Char → Shape
  | ['-', '-'] => .separator
  | '-' :: '-' :: text =>
    match text.dropWhile (· ≠ '=') with
    | [] => .long text none
    | _ :: value => .long (text.takeWhile (· ≠ '=')) (some value)
  | '-' :: letter :: _ => .short letter
  | _ => .plain

/-- Reads arguments, given the settings read before. -/
def Invocation.read (options : Options) : List String → Except ArgumentError Invocation
  | [] => .ok (.start options)
  | argument :: rest =>
    match Shape.of argument.toList with
    | .plain => .error (.unexpected argument)
    | .separator =>
      match rest with
      | [] => .ok (.start options)
      | next :: _ => .error (.unexpected next)
    | .short letter =>
      if letter = 'V' then .ok .version
      else if letter = 'h' then .ok .help
      else .error (.unexpected argument)
    | .long name value =>
      if value = none ∧ name = "version".toList then .ok .version
      else if value = none ∧ name = "help".toList then .ok .help
      else
        match Setting.ofName? name with
        | none => .error (.unexpected argument)
        | some setting =>
          match value, rest with
          | some value, rest =>
            match options.set setting (String.ofList value) with
            | .ok options => Invocation.read options rest
            | .error e => .error e
          | none, [] => .error (.missingValue setting)
          | none, next :: rest =>
            if Shape.of next.toList = .plain then
              match options.set setting next with
              | .ok options => Invocation.read options rest
              | .error e => .error e
            else .error (.missingValue setting)

namespace ArgumentError

/-- The message. -/
def message : ArgumentError → String
  | .unexpected argument => "unexpected argument '" ++ argument ++ "'"
  | .missingValue setting => "a value is required for '--" ++ setting.name ++ "'"
  | .invalidValue setting value =>
    "invalid value '" ++ value ++ "' for '--" ++ setting.name ++ "'"
  | .repeated setting => "'--" ++ setting.name ++ "' cannot be used multiple times"

end ArgumentError

end EmbeddedSql.Shell
