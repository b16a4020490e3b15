import SpanRelay.Report.Basic
import SpanRelay.Report.Table

/-! # Printouts

A `Printout` is what a command has to tell, both for other programs and for people. A `Form` is the
choice between its written forms, and `Printout.render?` is its text in one of them. -/

namespace SpanRelay

/-- A written form of a printout. -/
inductive Form
  /-- For people. -/
  | table
  | json
  | yaml
  | toml
deriving DecidableEq, Repr

/-- The name of the form on the command line. -/
def Form.word : Form → String
  | table => "table"
  | json => "json"
  | yaml => "yaml"
  | toml => "toml"

def Form.all : List Form := [.table, .json, .yaml, .toml]

/-- A report and the table that shows it. -/
structure Printout where
  report : Report
  table : Table

/-- The text of a printout in a form, if the form can hold it. -/
def Printout.render? (p : Printout) (form : Form) (coloured : Bool) : Option String :=
  match form with
  | .table => some (String.ofList (p.table.write coloured))
  | .json => some (String.ofList p.report.toJson.pretty)
  | .yaml => some (String.ofList p.report.indented)
  | .toml => p.report.tables?.map String.ofList

end SpanRelay
