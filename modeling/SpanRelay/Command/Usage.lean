/-! # Errors of usage

A `UsageError` says why the arguments of the program are not followed. `UsageError.message` is what
the user reads, and `UsageError.exit` the number with which the program ends. -/

namespace SpanRelay

/-- Why arguments are not followed. -/
inductive UsageError
  /-- Nothing at all is given. -/
  | nothingGiven
  | noCommand
  | unknownCommand
  | unknownArgument
  /-- A value is missing, or is none of those that can be chosen. -/
  | invalidValue
  /-- A value is no number of the right kind. -/
  | malformedValue
  /-- A flag or an option is repeated. -/
  | conflict
  /-- A flag is given a value. -/
  | tooManyValues
  | help
  | version
deriving DecidableEq, Repr

/-- The number with which the program ends. -/
def UsageError.exit : UsageError → Nat
  | help | version => 0
  | _ => 2

/-- What is printed when the version is asked for. -/
def programVersion : String := "sessiontrace 0.3.0\n"

/-- How the program is called. -/
def helpText : String := "\n".intercalate [
  "Usage: sessiontrace [-v] [-q] [--json-logs] COMMAND",
  "",
  "Commands:",
  "  config    show the settings",
  "  health    look whether the store works",
  "  simulate  run simulated sessions",
  "",
  "Each command takes [-c FILE] [--format table|json|yaml|toml]; simulate also takes",
  "[--sessions N] [--steps N] [--level off|error|info|debug] [--fail-at STEP] [--dry-run].",
  ""]

namespace UsageError

/-- Why the arguments are not followed, if the user did not ask for an answer. -/
def fault : UsageError → String
  | nothingGiven | noCommand => "a command is missing"
  | unknownCommand => "there is no such command"
  | unknownArgument => "an argument is not expected"
  | invalidValue => "a value is missing or cannot be chosen"
  | malformedValue => "a value is no number of the right kind"
  | conflict => "an argument is repeated"
  | tooManyValues => "a value is given to a flag"
  | help | version => ""

/-- What the user reads: an answer, or the fault. -/
def message : UsageError → String
  | nothingGiven | help => helpText
  | version => programVersion
  | e => "error: " ++ e.fault ++ "\n"

end UsageError

end SpanRelay
