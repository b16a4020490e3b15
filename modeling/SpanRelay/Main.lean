import SpanRelay.Command.Line

/-! # The program

`main` gathers what a command needs from the system, and prints what `Command.run` makes of it. The
program has no connection to a network, so the server behind the store is out of reach for it. -/

namespace SpanRelay

/-- A number of 64 random bits. -/
def randomWord : IO UInt64 := do
  return (← IO.getRandomBytes 8).foldl (fun word b => word * 256 + b.toUInt64) 0

/-- A random number of 64 bits for each session of a command. -/
def randomDraws (c : Command) : IO (Nat → UInt64) := do
  let words ← (Array.range c.draws).mapM fun _ => randomWord
  return fun index => words[index]?.getD 0

/-- The variables of the system that settings may be taken from. -/
def systemVariables : IO Variables := do
  let add (t : Map.Table String String) (name : String) : IO (Map.Table String String) := do
    return (← IO.getEnv name).elim t (t.insert name)
  return .ofTable (← (Invocation.pathVariable :: Config.variableNames).foldlM add .empty)

/-- Why the system refuses a file. -/
def refusalOf : IO.Error → String
  | .noFileOrDirectory .. => Files.notFound
  | .permissionDenied .. => Files.notAllowed
  | .inappropriateType _ 21 _ => Files.notFile
  | .inappropriateType .. => Files.notFolder
  | e => toString e

/-- The only file that a command reads. -/
def fileAt (path : String) : IO Files := do
  let content := (← (IO.FS.readBinFile path).toBaseIO).mapError refusalOf
  return fun p => if p = path then content else .error "not read"

/-- The files that a command reads. -/
def systemFiles (c : Command) : IO Files :=
  c.path?.elim (return fun _ => .error "not read") fileAt

/-- What a command finds in the system. -/
def systemWorld (vars : Variables) (c : Command) : IO World := do
  return {
    now := simulationStart
    runNumber := (← randomWord).toNat
    ids := .ofSeed (← randomWord)
    draw := ← randomDraws c
    vars := vars
    files := ← systemFiles c
    server := .unreachable
    coloured := ← (← IO.getStdout).isTty }

/-- Carries out a command and gives the number with which the program ends. -/
def perform (vars : Variables) (c : Command) : IO UInt32 := do
  let outcome := c.run (← systemWorld vars c)
  (← IO.getStdout).putStr outcome.output
  (← IO.getStderr).putStr outcome.complaint
  return UInt32.ofNat outcome.exit.code

/-- Answers arguments that are not followed and gives the number with which the program ends. -/
def refuse (e : UsageError) : IO UInt32 := do
  let stream ← if e.exit = 0 then IO.getStdout else IO.getStderr
  stream.putStr e.message
  return UInt32.ofNat e.exit

end SpanRelay

/-- The program: it follows the arguments and ends with the number of what came of them. -/
def main (args : List String) : IO UInt32 := do
  let vars ← SpanRelay.systemVariables
  match SpanRelay.Invocation.ofArguments vars args with
  | .ok i => SpanRelay.perform vars i.command
  | .error e => SpanRelay.refuse e
