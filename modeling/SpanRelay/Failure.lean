import SpanRelay.Error

/-! # Failures

A `Failure` is an error under notes of what was being done when it came up. `Failure.message` is the
whole of it in one line, and `Failure.exit` the code with which a program ends over it. -/

namespace SpanRelay

/-- What a failure comes from. -/
inductive Failure.Cause
  | relay (e : RelayError)
  /-- Something outside the pipeline. -/
  | other (reason : String)
deriving DecidableEq, Repr

/-- A cause under notes of context. -/
structure Failure where
  /-- What was being done, outermost first. -/
  notes : List String
  cause : Failure.Cause
deriving DecidableEq, Repr

/-- How a program ends. -/
inductive Exit
  | success
  /-- The store cannot be reached or does not work, or spans were lost. -/
  | storeUnavailable
  /-- The settings or the arguments cannot be used. -/
  | invalidInput
  | fileError
  | internalError
deriving DecidableEq, Repr

/-- The number with which the program ends. -/
def Exit.code : Exit → Nat
  | success => 0
  | storeUnavailable => 1
  | invalidInput => 3
  | fileError => 4
  | internalError => 10

namespace Failure

/-- A failure of which nothing more is said. -/
def of (e : RelayError) : Failure := ⟨[], .relay e⟩

/-- The failure with a note above it. -/
def under (note : String) (f : Failure) : Failure := { f with notes := note :: f.notes }

/-- The texts of a cause, down to what lies under it. -/
def Cause.texts : Cause → List String
  | relay e => e.texts
  | other reason => [reason]

/-- The text of a failure: the notes, and then the cause. -/
def message (f : Failure) : String := ": ".intercalate (f.notes ++ f.cause.texts)

/-- How a program ends over a failure. -/
def exit (f : Failure) : Exit :=
  match f.cause with
  | .relay (.config _) => .invalidInput
  | .relay (.file _) => .fileError
  | .relay e => if e.isRetryable then .storeUnavailable else .internalError
  | .other _ => .internalError

end Failure

end SpanRelay
