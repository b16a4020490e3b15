import SpanRelay.Command.Settings

/-! # Command lines

The arguments of the program are flags and options for all commands, the name of a command, and flags
and options for that command. A `CommandLine.Reading` takes them one by one, and
`Invocation.ofArguments` makes an `Invocation` of them, or says what is wrong with them. -/

namespace SpanRelay

namespace CommandLine

/-! ### Reading arguments -/

/-- An option that was met, whose value is not looked at yet, and may still be to come. -/
structure Pending where
  key : Key
  value : Option String
deriving DecidableEq, Repr

/-- What the arguments so far have come to. -/
structure Reading where
  settings : Settings
  pending : Option Pending
deriving DecidableEq, Repr

namespace Reading

/-- Nothing has been read yet. -/
def start : Reading := ⟨.none, none⟩

/-- The settings, with the value of the option that is pending. -/
def settled (r : Reading) : Except UsageError Settings :=
  match r.pending with
  | none => .ok r.settings
  | some ⟨_, none⟩ => .error .invalidValue
  | some ⟨key, some text⟩ => r.settings.put key text

/-- What there is after a flag. -/
def flag (r : Reading) (key : Key) : Except UsageError Reading := do
  return ⟨← (← r.settled).raise key, none⟩

/-- What there is after an option whose value stands in the same argument. -/
def attached (r : Reading) (key : Key) (text : String) : Except UsageError Reading := do
  return ⟨← (← r.settled).put key text, none⟩

/-- What there is after an option whose value is to come. -/
def await (r : Reading) (key : Key) : Except UsageError Reading := do
  return ⟨← r.settled, some ⟨key, none⟩⟩

/-- What there is after an argument with two hyphens: a name, and perhaps a value behind an equals
sign. -/
def long (keys : List Key) (r : Reading) (cs : List Char) : Except UsageError Reading :=
  let name := cs.takeWhile (· ≠ '=')
  match keys.find? fun k => k.long.toList = name, cs.drop name.length with
  | none, _ => .error .unknownArgument
  | some key, '=' :: text =>
    if key.takesValue then r.attached key (String.ofList text) else .error .tooManyValues
  | some key, _ => if key.takesValue then r.await key else r.flag key

/-- What there is after an argument with one hyphen: letters of flags, and perhaps of an option, of
which the rest is the value. -/
def short (keys : List Key) : Reading → List Char → Except UsageError Reading
  | r, [] => .ok r
  | r, c :: cs =>
    match keys.find? fun k => k.short? = some c with
    | none => .error .unknownArgument
    | some key =>
      if key.takesValue then
        match cs with
        | [] => r.await key
        | '=' :: text => r.attached key (String.ofList text)
        | text => r.attached key (String.ofList text)
      else do short keys (← r.flag key) cs

/-- What there is after an argument that begins with a hyphen, or after the value of an option;
`none` if the argument is neither. -/
def take? (keys : List Key) (r : Reading) (arg : String) : Option (Except UsageError Reading) :=
  match arg.toList with
  | '-' :: '-' :: cs => some (r.long keys cs)
  | '-' :: c :: cs => some (short keys r (c :: cs))
  | _ =>
    match r.pending with
    | some ⟨key, none⟩ => some (.ok { r with pending := some ⟨key, some arg⟩ })
    | _ => none

end Reading

/-- The settings of the arguments behind a command. Behind two hyphens nothing may follow. -/
def readCommand (v : Verb) : Reading → List String → Except UsageError Settings
  | r, [] => r.settled
  | r, arg :: args =>
    if arg = "--" then if args.isEmpty then r.settled else .error .unknownArgument
    else
      match r.take? (keysOf v) arg with
      | some next => do readCommand v (← next) args
      | none => .error .unknownArgument

/-- What is wrong with a request for help on the given commands. -/
def helpOn : List String → UsageError
  | [] => .help
  | [name] => if name = helpWord ∨ (Verb.ofWord? name).isSome then .help else .unknownCommand
  | _ => .unknownCommand

/-- What is wrong with the first argument behind two hyphens, where no command is found. -/
def behindHyphens (arg : String) : UsageError :=
  if arg = helpWord ∨ (Verb.ofWord? arg).isSome then .unknownArgument else .unknownCommand

/-- The settings before a command, the command, and those behind it. -/
def readAll : Reading → List String → Except UsageError (Settings × Verb × Settings)
  | r, [] => .error (if r = .start then .nothingGiven else .noCommand)
  | r, arg :: args =>
    if arg = helpWord then .error (helpOn args)
    else
      match Verb.ofWord? arg with
      | some v => do return (← r.settled, v, ← readCommand v .start args)
      | none =>
        if arg = "--" then
          match args with
          | [] => readAll r []
          | arg :: _ => .error (behindHyphens arg)
        else
          match r.take? (keysOf none) arg with
          | some next => do readAll (← next) args
          | none => .error .unknownCommand

end CommandLine

/-! ### Invocations -/

/-- What the arguments ask for. -/
structure Invocation where
  verbosity : Nat
  quiet : Bool
  jsonLogs : Bool
  command : Command
deriving DecidableEq, Repr

namespace Invocation

open CommandLine

/-- The variable that gives the path of the settings where no option does. -/
def pathVariable : String := "SESSIONTRACE_CONFIG"

/-- The path of the settings. -/
def pathOf (vars : Variables) (s : Settings) : Except UsageError (Option String) :=
  match s.path, vars pathVariable with
  | some path, _ => .ok (some path)
  | none, none => .ok none
  | none, some text => Settings.value none .invalidValue Settings.path? text

/-- The command with its settings; what is not set has its default. -/
def commandOf (v : Verb) (path : Option String) (s : Settings) : Command :=
  let form := s.form.getD .table
  match v with
  | .config => .config path form
  | .health => .health path form
  | .simulate =>
    let plan : Plan := ⟨s.sessions.getD 10, s.steps.getD 5, s.level.getD .debug, s.failAt⟩
    .simulate path plan s.dryRun form

/-- What the arguments ask for. A flag for all commands counts behind the command, if it is there,
else before it. -/
def ofArguments (vars : Variables) (args : List String) : Except UsageError Invocation := do
  let (before, v, behind) ← readAll .start args
  let path ← pathOf vars behind
  return {
    verbosity := if behind.verbosity = 0 then before.verbosity else behind.verbosity
    quiet := before.quiet || behind.quiet
    jsonLogs := before.jsonLogs || behind.jsonLogs
    command := commandOf v path behind }

end Invocation

end SpanRelay
