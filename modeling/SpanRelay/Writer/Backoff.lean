/-! # Adaptive delay

A `Backoff` is the delay before each request to the store. It starts at zero; a failure moves it to
the minimum or doubles it up to the maximum, and a success halves it, down to zero once it would
fall below the minimum. -/

namespace SpanRelay

def nanosPerMilli : Nat := 1000000

/-- A delay between its bounds, all in nanoseconds. -/
structure Backoff where
  current : Nat
  min : Nat
  max : Nat
deriving DecidableEq, Repr

namespace Backoff

/-- No delay yet, with the given bounds in milliseconds. -/
def ofMillis (min max : Nat) : Backoff := ⟨0, min * nanosPerMilli, max * nanosPerMilli⟩

/-- The delay after a failure: the minimum at first, then twice as much, up to the maximum. -/
def increase (b : Backoff) : Backoff :=
  { b with current := if b.current = 0 then b.min else Nat.min (2 * b.current) b.max }

/-- The delay after a success: half of it, or none if that is below the minimum. -/
def decrease (b : Backoff) : Backoff :=
  { b with current := if b.current / 2 < b.min then 0 else b.current / 2 }

def reset (b : Backoff) : Backoff := { b with current := 0 }

def millis (b : Backoff) : Nat := b.current / nanosPerMilli

end Backoff

end SpanRelay
