import SpanRelay.Map.Sorted

/-! # JSON values

A value of the exchange format as it stands in a text: members of an object in their written order,
a repeated name included, and whole numbers apart from the others. `canonical` is the same value
with the members of every object sorted by name, the last of a repeated name kept. -/

namespace SpanRelay

/-- A JSON value. Whole numbers are those of 64 bits, with or without a sign; every other number is
a floating point number. -/
inductive Json
  | null
  | bool (b : Bool)
  | int (n : Int)
  | real (x : Float)
  | text (s : String)
  | list (items : List Json)
  | object (members : List (String × Json))
  /-- A value that can be passed over but not used: a number out of range, an unpaired surrogate,
  or lists and objects nested too deep. -/
  | unreadable

namespace Json

mutual

/-- The value with the members of every object sorted, the last of a repeated name kept. -/
def canonical : Json → Json
  | .list items => .list (canonicalItems items)
  | .object members => .object (Map.Sorted.ofList (canonicalMembers members)).entries
  | .null => .null
  | .bool b => .bool b
  | .int n => .int n
  | .real x => .real x
  | .text s => .text s
  | .unreadable => .unreadable

/-- The items of a list, each in its canonical form. -/
def canonicalItems : List Json → List Json
  | [] => []
  | v :: vs => canonical v :: canonicalItems vs

/-- The members of an object with canonical values, still in their order. -/
def canonicalMembers : List (String × Json) → List (String × Json)
  | [] => []
  | (name, v) :: ms => (name, canonical v) :: canonicalMembers ms

end

mutual

/-- Whether every part of the value can be used. -/
def readable : Json → Bool
  | .list items => readableItems items
  | .object members => readableMembers members
  | .unreadable => false
  | .null | .bool _ | .int _ | .real _ | .text _ => true

/-- All items can be used. -/
def readableItems : List Json → Bool
  | [] => true
  | v :: vs => readable v && readableItems vs

/-- The values of all members can be used. -/
def readableMembers : List (String × Json) → Bool
  | [] => true
  | (_, v) :: ms => readable v && readableMembers ms

end

/-- The last member of a name, if the value is an object. -/
def member? (name : String) : Json → Option Json
  | .object members => (members.reverse.find? fun m => m.1 = name).map Prod.snd
  | _ => none

def text? : Json → Option String
  | .text s => some s
  | _ => none

def bool? : Json → Option Bool
  | .bool b => some b
  | _ => none

/-- The whole number from zero to below `bound` that a value holds. -/
def nat? (bound : Nat) : Json → Option Nat
  | .int n => if 0 ≤ n ∧ n < bound then some n.toNat else none
  | _ => none

/-- The floating point number a value holds, a whole number included. -/
def real? : Json → Option Float
  | .int n => some (if n < 0 then -n.natAbs.toUInt64.toFloat else n.natAbs.toUInt64.toFloat)
  | .real x => some x
  | _ => none

end Json

end SpanRelay
