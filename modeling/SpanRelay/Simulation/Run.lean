import SpanRelay.Pipeline
import SpanRelay.Simulation.Plan

/-! # Simulations

A simulation is a list of `Move`s on a pipeline: parts of sessions, and turns of the writer between
them. `Plan.moves` is the one in which the sessions take their parts in rounds, and
`Plan.simulate` makes these moves and then shuts the pipeline down. -/

namespace SpanRelay

/-- Something that happens in a simulation. -/
inductive Move
  /-- A session makes some calls. -/
  | part (calls : List Call)
  | writer

/-- A pipeline with how many sessions were sampled. -/
structure Simulated (σ : Type) where
  pipeline : Pipeline σ
  sampled : Nat

namespace Simulated

variable {σ : Type}

/-- What one call does; a session that is sampled is counted. -/
def call (s : Simulated σ) : Call → Simulated σ
  | .start start draw =>
    let (pipeline, sampled) := s.pipeline.startSession start draw
    ⟨pipeline, if sampled then s.sampled + 1 else s.sampled⟩
  | .hook hook => { s with pipeline := (s.pipeline.call hook).1 }

/-- What one move does, be it a part of a session or a turn of the writer. -/
def move (sink : Sink σ) (s : Simulated σ) : Move → Simulated σ
  | .part calls => calls.foldl call s
  | .writer => { s with pipeline := { s.pipeline with desk := s.pipeline.desk.turn sink } }

/-- What is there after the pipeline was shut down. -/
def shutdown (sink : Sink σ) (s : Simulated σ) : Simulated σ :=
  { s with pipeline := { s.pipeline with desk := s.pipeline.desk.shutdown sink } }

end Simulated

namespace Plan

/-- The moves of a round: the parts of the sessions in the order of their indices, and then a turn of
the writer. -/
def round (sessions : List (List (List Call))) (number : Nat) : List Move :=
  (sessions.filterMap fun parts => (parts[number]?).map Move.part) ++ [.writer]

/-- The moves of the whole simulation, round by round. -/
def moves (p : Plan) (w : Surroundings) : List Move :=
  let sessions := (List.range p.sessions).map (p.parts w)
  let rounds := (sessions.map List.length).foldl max 0
  (List.range rounds).flatMap (round sessions)

variable {σ : Type}

/-- What is there after the whole simulation, if the pipeline can run with the settings. Every session
has the level of the plan. -/
def simulate (p : Plan) (w : Surroundings) (config : Config) (sink : Sink σ) (store : σ) :
    Except RelayError (Simulated σ) :=
  (Pipeline.start config (StaticPolicy.of p.level).toPolicy store).map fun pipeline =>
    ((p.moves w).foldl (Simulated.move sink) ⟨pipeline, 0⟩).shutdown sink

end Plan

end SpanRelay
