import SpanRelay.Config.Basic
import SpanRelay.Hook

/-! # The pipeline

A `Pipeline` is the whole of configuration, policy, registry and writer. The engine calls it with
hooks, each of which changes the registry and hands spans to the queue at once; the writer moves
only when it is given a turn. -/

namespace SpanRelay

/-- The pipeline with a store whose states are in `σ`. -/
structure Pipeline (σ : Type) where
  config : Config
  policy : Policy
  registry : Registry
  desk : Desk σ

namespace Pipeline

variable {σ : Type}

/-- A pipeline before the first session, if it can run with the settings. -/
def start (config : Config) (policy : Policy) (store : σ) : Except RelayError (Pipeline σ) :=
  config.validate.map fun config => ⟨config, policy, .empty, .of config.queue config.writer store⟩

/-- A session starts. It is registered unless its chain is not traced; the answer tells whether it
is sampled, which is decided by a number drawn from the 64-bit range. -/
def startSession (p : Pipeline σ) (s : SessionStart) (draw : UInt64) : Pipeline σ × Bool :=
  let level := p.policy.sessionLevel s.chainId
  if level = .off then (p, false)
  else
    let sampled := isSampled p.config.samplingProbability draw
    ({ p with registry := p.registry.put (.start s level sampled) }, sampled)

/-- The pipeline with what a hook left. -/
def take (p : Pipeline σ) (result : HookResult) : Pipeline σ :=
  { p with registry := result.registry, desk := p.desk.scheduleAll result.spans }

/-- A hook is called; the answer tells whether it met a session that was registered. -/
def call (p : Pipeline σ) (hook : Hook) : Pipeline σ × Bool :=
  let result := hook.run p.policy p.registry
  (p.take result, result.accepted)

/-- A session is forgotten. -/
def clear (p : Pipeline σ) (sessionId : String) : Pipeline σ :=
  { p with registry := p.registry.clear sessionId }

/-- A hook is called whose session is forgotten just after the hook has found it. -/
def callDuringClear (p : Pipeline σ) (hook : Hook) : Pipeline σ × Bool :=
  let cleared := p.clear hook.sessionId
  match hook.find? p.registry with
  | none => (cleared, false)
  | some number =>
    let result := hook.body p.policy number cleared.registry
    (cleared.take result, result.accepted)

/-- The report of the moment: the counters, the bytes in the queue, and how many sessions are
registered. -/
def stats (p : Pipeline σ) : Stats where
  tally := p.desk.account.tally
  queuedBytes := p.desk.queue.queuedBytes
  activeSessions := p.registry.size

/-- The pipeline with the store changed. -/
def withStore (p : Pipeline σ) (f : σ → σ) : Pipeline σ :=
  { p with desk := { p.desk with store := f p.desk.store } }

end Pipeline

end SpanRelay
