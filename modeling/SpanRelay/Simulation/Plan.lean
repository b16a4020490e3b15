import SpanRelay.Hook
import SpanRelay.Json.Printer
import SpanRelay.Text.Identifier

/-! # Plans of a simulation

A `Plan` says how many sessions run and how many steps each of them takes. The steps of a session go
into each other, and end in the opposite order. `Plan.parts` is what one session calls, in the parts
between which others may get their turn. -/

namespace SpanRelay

/-- What to simulate. -/
structure Plan where
  sessions : Nat
  steps : Nat
  level : Level
  /-- The step that fails, counted from zero. -/
  failAt : Option Nat
deriving DecidableEq, Repr

/-- The ids of the spans of a simulation, by their numbers. -/
def SpanIds : Type := Nat → String

namespace SpanIds

/-- The identifiers of a seed. -/
def ofSeed (seed : UInt64) : SpanIds := fun n => String.ofList (Text.identifier seed n)

/-- A number stands for the identifiers of which it is the seed. -/
instance (seed : Nat) : OfNat SpanIds seed := ⟨ofSeed (.ofNat seed)⟩

end SpanIds

/-- What a simulation takes from the world around it. -/
structure Surroundings where
  now : Timestamp
  /-- The number that tells this run of the program from others. -/
  runNumber : Nat
  ids : SpanIds
  /-- The number that the session of an index draws. -/
  draw : Nat → UInt64

/-- What a session calls. -/
inductive Call
  /-- It starts, having drawn a number. -/
  | start (s : SessionStart) (draw : UInt64)
  | hook (h : Hook)

namespace Plan

def numbered (word : String) (n : Nat) : String := word ++ String.ofList (Text.digits n)

/-- Whether a step fails that is to be executed. -/
def fails (p : Plan) : Bool := p.failAt.any (· < p.steps)

/-- How many steps are executed: none after the one that fails. -/
def executed (p : Plan) : Nat :=
  match p.failAt with
  | some k => min p.steps (k + 1)
  | none => p.steps

/-- The id of a session: the number of the run and the index in it. -/
def sessionId (w : Surroundings) (index : Nat) : String :=
  numbered (numbered "sim-" w.runNumber ++ "-") index

/-- The id of the span of a step: the steps are numbered through all sessions. -/
def spanId (p : Plan) (w : Surroundings) (index step : Nat) : String :=
  w.ids (index * p.steps + step)

/-- What a session starts with. All of them belong to one chain, which is simulated. -/
def sessionStart (w : Surroundings) (index : Nat) : SessionStart where
  sessionId := sessionId w index
  chainId := "simulated-chain"
  chainName := "Simulated chain"
  externalId := some (numbered "ext-" index)
  domain := some "simulation"
  engineAddress := none
  snapshotName := none
  parentSessionId := none
  startedAt := w.now

/-- The element that a step executes. The first step is the trigger of the chain. -/
def element (step : Nat) : Element where
  elementId := numbered "step-" step
  name := numbered "Step " step
  typeTag := if step = 0 then "trigger" else "script"
  subChainId := none
  branchKey := none

/-- Each step but the first is executed inside the step before it. -/
def parentOf (step : Nat) : Option ParentHint :=
  if step = 0 then none else some (.plain (numbered "step-" (step - 1)))

/-- What a step is given. -/
def given (index step : Nat) : Snapshot :=
  let body := Json.object [("session", .int index), ("step", .int step)]
  ((Snapshot.empty.withBody body.compact).withHeader "x-step" (numbered "" step)).withContext
    "session_index" (numbered "" index)

/-- What a step gives back. -/
def result : Snapshot := Snapshot.empty.withBody (Json.object [("ok", .bool true)]).compact

/-- How a step ends: the innermost one fails if one does. -/
def outcome (p : Plan) (step : Nat) : Outcome :=
  if p.fails && step + 1 = p.executed then
    .failure ⟨"SimulatedFailure", numbered "step " step ++ " failed", none⟩
  else .success

/-- The call by which the span of a step is opened. -/
def opening (p : Plan) (w : Surroundings) (index step : Nat) : Call :=
  .hook (.before (sessionId w index) (p.spanId w index step) (element step) (parentOf step)
    (given index step) w.now)

/-- The call by which the span of a step is ended. -/
def closing (p : Plan) (w : Surroundings) (index step : Nat) : Call :=
  .hook (.after ⟨sessionId w index, p.spanId w index step⟩ result (p.outcome step) w.now)

/-- The call by which a session ends. Its status tells whether a step failed. -/
def ending (p : Plan) (w : Surroundings) (index : Nat) : Call :=
  let status := if p.fails then Status.completedWithErrors else .completedNormally
  .hook (.finish (sessionId w index) status w.now 0)

/-- The calls of a session in its parts: it gives others their turn after the start of each step. -/
def parts (p : Plan) (w : Surroundings) (index : Nat) : List (List Call) :=
  let steps := List.range p.executed
  let start := Call.start (sessionStart w index) (w.draw index)
  let last := steps.reverse.map (p.closing w index) ++ [p.ending w index]
  match steps.map (p.opening w index) with
  | [] => [start :: last]
  | o :: os => [start, o] :: (os.map fun o => [o]) ++ [last]

end Plan

end SpanRelay
