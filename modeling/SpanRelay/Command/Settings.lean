import SpanRelay.Command.Basic
import SpanRelay.Command.Usage

/-! # Flags and options

A `Key` is a flag or an option, a `Verb` the name of a command. `Settings` are what flags and options
have set: `Settings.raise` takes a flag and `Settings.put` an option with its value. -/

namespace SpanRelay.CommandLine

/-- A flag or an option. -/
inductive Key
  | verbose
  | quiet
  | jsonLogs
  | help
  | version
  | config
  | format
  | sessions
  | steps
  | level
  | failAt
  | dryRun
deriving DecidableEq, Repr

namespace Key

/-- The name behind two hyphens. -/
def long : Key → String
  | verbose => "verbose"
  | quiet => "quiet"
  | jsonLogs => "json-logs"
  | help => "help"
  | version => "version"
  | config => "config"
  | format => "format"
  | sessions => "sessions"
  | steps => "steps"
  | level => "level"
  | failAt => "fail-at"
  | dryRun => "dry-run"

/-- The letter behind one hyphen. -/
def short? : Key → Option Char
  | verbose => some 'v'
  | quiet => some 'q'
  | help => some 'h'
  | version => some 'V'
  | config => some 'c'
  | _ => none

/-- Whether it takes a value. -/
def takesValue : Key → Bool
  | config | format | sessions | steps | level | failAt => true
  | _ => false

/-- Those that may stand everywhere. -/
def common : List Key := [verbose, quiet, jsonLogs, help]

end Key

/-- The commands, without what they are given. -/
inductive Verb
  | config
  | health
  | simulate
deriving DecidableEq, Repr

namespace Verb

def word : Verb → String
  | config => "config"
  | health => "health"
  | simulate => "simulate"

def all : List Verb := [config, health, simulate]

def ofWord? (s : String) : Option Verb := all.find? fun v => v.word = s

/-- The options that a command takes. -/
def keys : Verb → List Key
  | config | health => [.config, .format]
  | simulate => [.config, .sessions, .steps, .level, .failAt, .dryRun, .format]

end Verb

/-- The name of the command that shows help. -/
def helpWord : String := "help"

/-- The flags and options that may stand before a command, or behind the given one. -/
def keysOf : Option Verb → List Key
  | none => .version :: Key.common
  | some v => v.keys ++ Key.common

/-! ### Settings -/

/-- What flags and options have set. -/
structure Settings where
  /-- How often more words were asked for. -/
  verbosity : Nat
  quiet : Bool
  jsonLogs : Bool
  path : Option String
  form : Option Form
  sessions : Option Nat
  steps : Option Nat
  level : Option Level
  failAt : Option Nat
  dryRun : Bool
deriving DecidableEq, Repr

namespace Settings

def none : Settings := ⟨0, false, false, .none, .none, .none, .none, .none, .none, false⟩

/-- From here on more requests for details do not count. -/
def maxVerbosity : Nat := 255

/-- A flag is set once. -/
def once (isSet : Bool) (s : Settings) : Except UsageError Settings :=
  if isSet then .error .conflict else .ok s

/-- The settings after a flag. Help and version are answered at once. -/
def raise (s : Settings) : Key → Except UsageError Settings
  | .verbose => .ok { s with verbosity := min (s.verbosity + 1) maxVerbosity }
  | .quiet => once s.quiet { s with quiet := true }
  | .jsonLogs => once s.jsonLogs { s with jsonLogs := true }
  | .dryRun => once s.dryRun { s with dryRun := true }
  | .help => .error .help
  | .version => .error .version
  | .config | .format | .sessions | .steps | .level | .failAt => .error .invalidValue

variable {α : Type}

/-- The value of an option that is set once. -/
def value (current : Option α) (fault : UsageError) (read : String → Option α) (text : String) :
    Except UsageError (Option α) :=
  if current.isSome then .error .conflict
  else
    match read text with
    | some a => .ok (some a)
    | .none => .error fault

/-- A path, which is not empty. -/
def path? (text : String) : Option String := if text.isEmpty then .none else some text

/-- The form of a name that is given for it. -/
def form? (text : String) : Option Form := Form.all.find? fun f => f.word = text

/-- The level of a word in small letters. -/
def level? (text : String) : Option Level :=
  Level.all.find? fun l => l.word.toList.map Char.toLower = text.toList

/-- A count of 64 bits, perhaps after a plus sign. -/
def count? (text : String) : Option Nat :=
  let ds := match text.toList with
    | '+' :: ds => ds
    | ds => ds
  (Text.numeral? 10 ds).filter (· < Word.range 64)

/-- The settings after an option with its value. -/
def put (s : Settings) (key : Key) (text : String) : Except UsageError Settings :=
  match key with
  | .config => (value s.path .invalidValue path? text).map fun path => { s with path }
  | .format => (value s.form .invalidValue form? text).map fun form => { s with form }
  | .level => (value s.level .invalidValue level? text).map fun level => { s with level }
  | .sessions =>
    (value s.sessions .malformedValue count? text).map fun sessions => { s with sessions }
  | .steps => (value s.steps .malformedValue count? text).map fun steps => { s with steps }
  | .failAt => (value s.failAt .malformedValue count? text).map fun failAt => { s with failAt }
  | .verbose | .quiet | .jsonLogs | .dryRun | .help | .version => .error .tooManyValues

end Settings

end SpanRelay.CommandLine
