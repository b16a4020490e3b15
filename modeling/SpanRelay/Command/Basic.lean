import SpanRelay.Config.File
import SpanRelay.Report.Health
import SpanRelay.Report.Settings
import SpanRelay.Report.Simulation
import SpanRelay.Store.Http
import SpanRelay.Store.Memory

/-! # Commands

A `Command` shows the settings, looks at the store or simulates sessions. `Command.run` is what comes
of it in a `World`: what is printed, what is complained of, and how the program ends. -/

namespace SpanRelay

/-- What the program is asked to do. Each command may be given the path of a file of settings. -/
inductive Command
  | config (path : Option String) (form : Form)
  | health (path : Option String) (form : Form)
  | simulate (path : Option String) (plan : Plan) (dryRun : Bool) (form : Form)
deriving DecidableEq, Repr

/-- The path of the file of settings that a command reads. -/
def Command.path? : Command → Option String
  | config path _ | health path _ | simulate path _ _ _ => path

/-- How many sessions a command draws numbers for. -/
def Command.draws : Command → Nat
  | config .. | health .. => 0
  | simulate _ plan _ _ => plan.sessions

/-- What the program finds around it. -/
structure World extends Surroundings where
  vars : Variables
  files : Files
  server : Http.Server
  coloured : Bool

/-- What comes of a command, and the server as the command leaves it. -/
structure Command.Outcome where
  exit : Exit
  output : String
  complaint : String
  server : Http.Server

namespace Command

/-- Why a printout has no text in a form. -/
def unprintable : Failure := ⟨[], .other "out-of-range value for u64 type"⟩

/-- The text of a printout, on a line of its own. -/
def print (w : World) (p : Printout) (form : Form) : Except Failure String :=
  match p.render? form w.coloured with
  | some text => .ok (text ++ "\n")
  | none => .error unprintable

/-- The settings that the program is to run with. -/
def load (w : World) (path : Option String) : Except Failure Config :=
  Config.load w.files w.vars path

/-- Shows the settings, without the password. -/
def showConfig (w : World) (path : Option String) (form : Form) :
    Except Failure (Exit × String) := do
  let c ← load w path
  return (.success, ← print w c.masked.printout form)

/-- Looks whether the store works. -/
def showHealth (w : World) (path : Option String) (form : Form) :
    Http.Server × Except Failure (Exit × String) :=
  match load w path with
  | .error f => (w.server, .error f)
  | .ok c =>
    let (store, healthy) := (HttpStore.mk c.store w.server).checkHealth
    let h : Health := ⟨HttpStore.sink.name, c.store.endpoint, healthy, none⟩
    let exit := if healthy then Exit.success else .storeUnavailable
    (store.server, (print w h.printout form).map fun text => (exit, text))

/-- The complaint over a failing step that is not among the steps. -/
def outside (step steps : Nat) : RelayError :=
  .config s!"--fail-at {step} is outside the {steps} simulated steps"

/-- The settings to simulate a plan with, if its failing step is one of its steps. -/
def loadFor (w : World) (path : Option String) (plan : Plan) : Except Failure Config := do
  let c ← load w path
  match plan.failAt with
  | some step => if plan.steps ≤ step then throw (.of (outside step plan.steps)) else return c
  | none => return c

/-- The printed report of a simulation; spans that were lost show that the store does not work. -/
def tell (w : World) (s : Simulation) (form : Form) : Except Failure (Exit × String) :=
  let exit := if 0 < s.stats.tally.lost then Exit.storeUnavailable else .success
  (print w s.printout form).map fun text => (exit, text)

/-- Simulates a plan with a store in memory. -/
def simulateDry (w : World) (c : Config) (plan : Plan) (form : Form) :
    Except Failure (Exit × String) :=
  match plan.simulate w.toSurroundings c MemoryStore.sink .empty with
  | .error e => .error (.of e)
  | .ok s => tell w (.of plan s (some (s.pipeline.desk.store.count c.indexName))) form

/-- Simulates a plan with the store of the settings. -/
def simulateLive (w : World) (c : Config) (plan : Plan) (form : Form) :
    Http.Server × Except Failure (Exit × String) :=
  match plan.simulate w.toSurroundings c HttpStore.sink ⟨c.store, w.server⟩ with
  | .error e => (w.server, .error (.of e))
  | .ok s => (s.pipeline.desk.store.server, tell w (.of plan s none) form)

/-- The server after a command, and the end and the text or the failure that comes of it. -/
def perform (w : World) : Command → Http.Server × Except Failure (Exit × String)
  | config path form => (w.server, showConfig w path form)
  | health path form => showHealth w path form
  | simulate path plan dryRun form =>
    match loadFor w path plan with
    | .error f => (w.server, .error f)
    | .ok c =>
      if dryRun then (w.server, simulateDry w c plan form) else simulateLive w c plan form

/-- The line with which the program complains of a failure. -/
def complaintOf (w : World) (f : Failure) : String :=
  let mark : Painted := ⟨"error:".toList, some .boldRed⟩
  String.ofList (mark.write w.coloured) ++ " " ++ f.message ++ "\n"

/-- Carries a command out. A failure is complained of, and then nothing is printed. -/
def run (w : World) (c : Command) : Outcome :=
  match c.perform w with
  | (server, .ok (exit, text)) => ⟨exit, text, "", server⟩
  | (server, .error f) => ⟨f.exit, "", complaintOf w f, server⟩

end Command

end SpanRelay
