import SpanRelay.Decimal.Layout
import SpanRelay.Json.Pretty
import SpanRelay.Toml.Printer
import SpanRelay.Toml.Scalar
import SpanRelay.Yaml.Printer

/-! # Reports

A `Report` has named values, and behind them sections of named values. It can be written in each of
the three formats for other programs: `Report.toJson` gives it as a value, `Report.indented` and
`Report.tables?` give its text in the two formats of settings. -/

namespace SpanRelay

/-- A value of a report. -/
inductive Report.Value
  | flag (b : Bool)
  | count (n : Nat)
  | real (x : Float)
  | text (s : String)
  | word (s : String)

/-- Named values, and sections of them. -/
structure Report where
  fields : List (String × Report.Value)
  sections : List (String × List (String × Report.Value))

namespace Report

/-- The word of a truth value. -/
def flagWord (b : Bool) : List Char := if b then "true".toList else "false".toList

/-- The value in a record. -/
def Value.toJson : Value → Json
  | flag b => .bool b
  | count n => .int n
  | real x => .real x
  | text s | word s => .text s

/-- Named values as members of an object. -/
def members (fields : List (String × Value)) : List (String × Json) :=
  fields.map fun f => (f.1, f.2.toJson)

/-- The report as an object, each section as one inside it. -/
def toJson (r : Report) : Json :=
  .object (members r.fields ++ r.sections.map fun s => (s.1, .object (members s.2)))

/-- The value in the indented format, its lines `indent` deep. A word of an enumeration needs no
quotes. -/
def Value.indented (indent : Nat) : Value → List Char
  | flag b => flagWord b
  | count n => Text.digits n
  | real x => Decimal.Layout.indented.write x
  | text s => Yaml.scalarOf indent s.toList
  | word s => s.toList

/-- Named values in the indented format, `indent` deep. -/
def indentedFields (indent : Nat) (fields : List (String × Value)) : List Char :=
  fields.flatMap fun f => Yaml.entry indent f.1 (f.2.indented (indent + 2))

/-- The report in the indented format, the sections behind the fields. -/
def indented (r : Report) : List Char :=
  indentedFields 0 r.fields
    ++ r.sections.flatMap fun s => s.1.toList ++ ':' :: '\n' :: indentedFields 2 s.2

/-- The value in the format with tables, if it has one there: whole numbers are bounded. -/
def Value.tables? : Value → Option (List Char)
  | flag b => some (flagWord b)
  | count n => if n < Toml.wholeRange then some (Text.digits n) else none
  | real x => some (Decimal.Layout.settings.write x)
  | text s | word s => some (Toml.textOf s.toList)

/-- Named values in the format with tables. -/
def tablesFields? (fields : List (String × Value)) : Option (List Char) := do
  let lines ← fields.mapM fun f =>
    f.2.tables?.map fun v => f.1.toList ++ [' ', '=', ' '] ++ v ++ ['\n']
  return lines.flatten

/-- The report in the format with tables, if all its values have a form there. -/
def tables? (r : Report) : Option (List Char) := do
  let sections ← r.sections.mapM fun s =>
    (tablesFields? s.2).map fun inside => '\n' :: '[' :: (s.1.toList ++ ']' :: '\n' :: inside)
  return (← tablesFields? r.fields) ++ sections.flatten

/-- The fields of an optional value: one or none. -/
def optional {α : Type} (name : String) (value : α → Value) (a : Option α) :
    List (String × Value) :=
  (a.map fun a => (name, value a)).toList

end Report

end SpanRelay
