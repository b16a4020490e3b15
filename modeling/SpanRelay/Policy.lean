import SpanRelay.Map.Table
import SpanRelay.Record.Status

/-! # Policies

A `Policy` chooses the level of a session by its chain and says where message bodies may be
captured. Sampling decides which sessions of the levels `info` and `debug` are traced. Level, sample
and whether a failure was seen together make the `Tracking` of a session. -/

namespace SpanRelay

/-- Chooses levels and allows the capture of bodies. -/
structure Policy where
  /-- The level for a new session of a chain. -/
  sessionLevel : String → Level
  /-- Whether bodies may be captured for an element of a chain. -/
  capturePayload : String → String → Bool

/-- One level for all chains but those with a level of their own. -/
structure StaticPolicy where
  level : Level
  capturePayload : Bool
  chainLevels : Map.Table String Level

namespace StaticPolicy

/-- The policy of one level for all chains that captures bodies. -/
def of (level : Level) : StaticPolicy := ⟨level, true, .empty⟩

/-- The policy with a level of its own for a chain. -/
def withChainLevel (p : StaticPolicy) (chain : String) (level : Level) : StaticPolicy :=
  { p with chainLevels := p.chainLevels.insert chain level }

/-- A chain has its own level or the common one, and all elements are treated alike. -/
def toPolicy (p : StaticPolicy) : Policy where
  sessionLevel chain := (p.chainLevels.get? chain).getD p.level
  capturePayload _ _ := p.capturePayload

end StaticPolicy

/-- The policy of one level for all chains, capturing all bodies but those of the given pairs of
chain and element. -/
def Policy.denying (level : Level) (denied : List (String × String)) : Policy where
  sessionLevel _ := level
  capturePayload chain element := !denied.contains (chain, element)

/-- Whether a session is sampled that drew a number from the 64-bit range: always from probability
one on, never from zero down, else for the fraction of the range that the probability gives. -/
def isSampled (probability : Float) (draw : UInt64) : Bool :=
  if probability ≥ 1.0 then true
  else if probability ≤ 0.0 then false
  else draw < (probability * 18446744073709551616.0).toUInt64

/-- How the spans of a session are kept. -/
inductive Tracking
  /-- Nothing is kept. -/
  | skip
  /-- Only the latest span is held, and persisted only on a failure. -/
  | lastOnly
  /-- Every span is kept and persisted. -/
  | full
deriving DecidableEq, Repr

/-- How a session of a level is tracked, by whether it is sampled and whether it has failed. -/
def Tracking.of (level : Level) (sampled failureSeen : Bool) : Tracking :=
  match level with
  | .off => .skip
  | .error => if failureSeen then .full else .lastOnly
  | .info | .debug => if sampled then .full else .skip

def Tracking.word : Tracking → String
  | skip => "Skip"
  | lastOnly => "LastOnly"
  | full => "Full"

end SpanRelay
