import TraceJournal.Files.Path
import TraceJournal.Time.Instant

/-!
# Invocations

What the program is told to do, and why a command line cannot be understood.

Library tracelog-cli, module `cli`; SPEC_FULL §4.7.
-/

namespace TraceJournal

/-- How records are printed. Source: tracelog-cli `OutputFormat`. -/
inductive OutputFormat where
  | text
  | json
  deriving DecidableEq, Repr

namespace OutputFormat

/-- The name of a format. -/
def name : OutputFormat → String
  | text => "text"
  | json => "json"

/-- The format with a name. -/
def ofName? : String → Option OutputFormat
  | "text" => some text
  | "json" => some json
  | _ => none

/-- A format is found under its name. -/
theorem ofName?_name (format : OutputFormat) : ofName? format.name = some format := by
  cases format <;> rfl

end OutputFormat

/-- What the program does. Source: tracelog-cli `Command`. -/
inductive Command where
  /-- Prints records from a time on, or from just after the present, for so many seconds, or without
  end. -/
  | tail (start : Option Instant) (seconds : Option UInt64)
  /-- Emits the events of a demonstration for an owner. -/
  | emit (count : UInt64) (owner : String)
  /-- Prints the settings. -/
  | config
  deriving DecidableEq

/-- For how long a journal is followed. -/
def Command.seconds? : Command → Option UInt64
  | tail _ seconds => seconds
  | _ => none

/-- A command with the options that go with every one. Source: tracelog-cli `Cli`. -/
structure Invocation where
  command : Command
  verbose : Bool
  /-- The settings file; without one, all settings are as standard. -/
  settings : Option Path
  format : OutputFormat
  deriving DecidableEq

/-- Why no command is run. Source: clap `ErrorKind`. -/
inductive UsageError where
  /-- A word that names no command stands where one is expected. -/
  | unknownCommand
  /-- An option that does not exist there, or a word too many. -/
  | unknownArgument
  /-- A value that is missing, empty where it must not be, or none of those to choose from. -/
  | invalidValue
  /-- A value that cannot be read; the reason is told for times. -/
  | malformedValue (reason : Option String)
  | repeatedOption
  /-- A value for an option that takes none. -/
  | unneededValue
  /-- Nothing is given at all. -/
  | nothingGiven
  /-- Options are given, but no command. -/
  | missingCommand
  /-- Help is asked for. -/
  | help
  /-- The version is asked for. -/
  | version
  deriving DecidableEq

/-- The wording of a usage error. -/
def UsageError.message : UsageError → String
  | .unknownCommand => "unrecognized subcommand"
  | .unknownArgument => "unexpected argument"
  | .invalidValue => "missing or invalid value"
  | .malformedValue reason => reason.getD "malformed number"
  | .repeatedOption => "an option cannot be used multiple times"
  | .unneededValue => "unexpected value"
  | .nothingGiven | .missingCommand => "a subcommand is required"
  | .help => "tracelog [-v] [--config <FILE>] [--format text|json] tail|emit|config"
  | .version => "tracelog"

/-- The status with which the program ends. -/
def UsageError.status : UsageError → Nat
  | .help | .version => 0
  | _ => 2

end TraceJournal
