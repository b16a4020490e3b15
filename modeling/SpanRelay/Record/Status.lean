import SpanRelay.Json.Record

/-! # Statuses and levels

`Status` is the outcome of a session or of one element execution, `Level` the verbosity tier of a
session. Both are written as words in capitals. -/

namespace SpanRelay

/-- The outcome of a session or of one element execution. -/
inductive Status
  | inProgress
  | completedNormally
  | completedWithWarnings
  | completedWithErrors
  | cancelledOrUnknown
deriving DecidableEq, Repr

namespace Status

/-- The word of a status in records. -/
def word : Status → String
  | inProgress => "IN_PROGRESS"
  | completedNormally => "COMPLETED_NORMALLY"
  | completedWithWarnings => "COMPLETED_WITH_WARNINGS"
  | completedWithErrors => "COMPLETED_WITH_ERRORS"
  | cancelledOrUnknown => "CANCELLED_OR_UNKNOWN"

def all : List Status :=
  [inProgress, completedNormally, completedWithWarnings, completedWithErrors, cancelledOrUnknown]

/-- The status of a word in capitals. -/
def ofWord? (s : String) : Option Status := all.find? fun a => a.word = s

/-- Whether the execution has reached a final state. -/
def isTerminal (a : Status) : Bool := a ≠ inProgress

theorem ofWord?_word (a : Status) : ofWord? a.word = some a := by cases a <;> decide

def toJson (a : Status) : Json := .text a.word

/-- The status read from its word. -/
def ofJson? (v : Json) : Option Status := v.enumWord?.bind ofWord?

end Status

/-- The verbosity tier of a session. -/
inductive Level
  | off
  | error
  | info
  | debug
deriving DecidableEq, Repr

namespace Level

/-- The word of a level in records. -/
def word : Level → String
  | off => "OFF"
  | error => "ERROR"
  | info => "INFO"
  | debug => "DEBUG"

def all : List Level := [off, error, info, debug]

/-- The place of a level in the order of verbosity. -/
def rank : Level → Nat
  | off => 0
  | error => 1
  | info => 2
  | debug => 3

/-- The level where none is chosen. -/
def default : Level := info

/-- The level of a word in capitals. -/
def ofWord? (s : String) : Option Level := all.find? fun a => a.word = s

/-- The level a user names, in capital or small letters of ASCII; else the message why not. -/
def parse (s : String) : Except String Level :=
  let capitals := String.ofList (s.toList.map Char.toUpper)
  match ofWord? capitals with
  | some a => .ok a
  | none => .error s!"unknown logging level: {capitals}"

theorem ofWord?_word (a : Level) : ofWord? a.word = some a := by cases a <;> decide

def toJson (a : Level) : Json := .text a.word

/-- The level read from its word. -/
def ofJson? (v : Json) : Option Level := v.enumWord?.bind ofWord?

end Level

end SpanRelay
