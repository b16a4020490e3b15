import SpanRelay.Json.Basic
import SpanRelay.Word

/-! # Records in JSON

A record is written as an object of named fields. It is read from such an object, in any order and
with further members passed over, or from a list of its fields in their declared order. `Fields` is
what both offer to a reader: the value of a name, and whether a missing field may be left out. On
the writing side `field` and `optionalField` are the members of one field. -/

namespace SpanRelay.Json

/-- The fields of a record that was written as an object or as a list. -/
structure Fields where
  find? : String → Option Json
  /-- Whether the record was written as a list, where a field is missing only behind the end. -/
  listed : Bool

namespace Fields

/-- How often a name stands among the members. -/
def occurrences (name : String) (members : List (String × Json)) : Nat :=
  members.countP fun m => m.1 = name

/-- The fields of the given names among the members of an object; `none` if a name is repeated. -/
def ofMembers? (names : List String) (members : List (String × Json)) : Option Fields :=
  if names.all fun name => occurrences name members ≤ 1 then
    some ⟨fun name => (members.find? fun m => m.1 = name).map Prod.snd, false⟩
  else none

/-- The fields of the given names in a value: an object without a repeated name, or a list of no
more items than there are names. -/
def of? (names : List String) : Json → Option Fields
  | .object members => ofMembers? names members
  | .list items =>
    if items.length ≤ names.length then
      some ⟨fun name => ((names.zip items).find? fun m => m.1 = name).map Prod.snd, true⟩
    else none
  | _ => none

variable {α : Type}

/-- A field that has to be there. -/
def required (f : Fields) (name : String) (read : Json → Option α) : Option α :=
  (f.find? name).bind read

/-- A field that may be `null`, and that may be left out of an object. -/
def optional (f : Fields) (name : String) (read : Json → Option α) : Option (Option α) :=
  match f.find? name with
  | none => if f.listed then none else some none
  | some .null => some none
  | some v => (read v).map some

/-- A field with the value `default` where it is left out. -/
def defaulted (f : Fields) (name : String) (read : Json → Option α) (default : α) : Option α :=
  match f.find? name with
  | none => some default
  | some v => read v

/-- A field that is absent where it is left out, and that may be `null`. -/
def orAbsent (f : Fields) (name : String) (read : Json → Option α) : Option (Option α) :=
  f.defaulted name (fun v => match v with | .null => some none | v => (read v).map some) none

end Fields

/-- The member of a field that is always written. -/
def field (name : String) (v : Json) : List (String × Json) := [(name, v)]

variable {α : Type}

/-- The member of a field that is left out when it is absent. -/
def optionalField (name : String) (write : α → Json) : Option α → List (String × Json)
  | none => []
  | some a => [(name, write a)]

/-- The value of a field that is written as `null` when it is absent. -/
def orNull (write : α → Json) : Option α → Json
  | none => .null
  | some a => write a

/-- The word of an enumeration, given as a text or as the name of a member that is `null`. -/
def enumWord? : Json → Option String
  | .text s => some s
  | .object [(s, .null)] => some s
  | _ => none

/-- A number of 64 bits, if the value is one. -/
def word64? (v : Json) : Option UInt64 := (v.nat? (Word.range 64)).map Nat.toUInt64

/-- A number of 16 bits, if the value is one. -/
def word16? (v : Json) : Option UInt16 := (v.nat? (Word.range 16)).map Nat.toUInt16

def ofWord64 (n : UInt64) : Json := .int n.toNat

/-- A map with one text for each name. -/
def textMap? : Json → Option (Map.Sorted String)
  | .object members => do
    let entries ← members.mapM fun m => m.2.text?.map fun s => (m.1, s)
    return .ofList entries
  | _ => none

/-- A map with one value for each name. -/
def valueMap? : Json → Option (Map.Sorted Json)
  | .object members =>
    if readableMembers members then some (.ofList (canonicalMembers members)) else none
  | _ => none

/-- A map of texts as an object, in the order of its names. -/
def ofTextMap (m : Map.Sorted String) : Json := .object (m.entries.map fun e => (e.1, .text e.2))

/-- A map of values as an object, in the order of its names. -/
def ofValueMap (m : Map.Sorted Json) : Json := .object m.entries

end SpanRelay.Json
