import SpanRelay.Config.Reader
import SpanRelay.Toml.Document
import SpanRelay.Yaml.Node
import SpanRelay.Yaml.Scalar

/-! # The formats of settings

A `Format` is a way to write settings in a file: with tables, or by indentation. `Reading.tables` and
`Reading.indented` tell how their values are taken, and `Format.read?` reads the settings from a
text. -/

namespace SpanRelay

/-! ### Values of the format with tables -/

namespace Reading

/-- The readings of the format with tables. A record may be a list of its fields, and what the list
has behind them does not count. -/
def tables : Reading Json :=
  { json with
    fields? := fun names v =>
      match v with
      | .list vs => json.fields? names (.list (vs.take names.length))
      | v => json.fields? names v }

end Reading

/-! ### Values of the indented format -/

namespace Yaml.Node

/-- The entries of a mapping with the texts of their keys, if all of them are scalars. -/
def textEntries? (entries : List (Node × Node)) : Option (List (String × Node)) :=
  entries.mapM fun e =>
    match e.1 with
    | .scalar _ _ text => some (String.ofList text, e.2)
    | _ => none

/-- The fields of a record: a mapping with each name at most once, or nothing at all. -/
def fields? (names : List String) : Node → Option (String → Option Node)
  | .mapping entries => do
    let es ← textEntries? entries
    if names.all fun name => es.countP (fun e => e.1 = name) ≤ 1 then
      some fun name => (es.find? fun e => e.1 = name).map Prod.snd
    else none
  | .scalar true _ [] => some fun _ => none
  | _ => none

/-- The tag of a scalar that is nothing. -/
def nullTag : List Char := Reader.commonTag ++ ['n', 'u', 'l', 'l']

/-- Whether a node stands for an absent value: a plain scalar without a tag that is empty or spells a
null. One with the tag of a null has to spell it. -/
def absent? : Node → Option Bool
  | .scalar true none text => some (text.isEmpty || isNullWord text)
  | .scalar true (some tag) text =>
    if tag = nullTag then (if isNullWord text then some true else none) else some false
  | _ => some false

end Yaml.Node

/-- The readings of the indented format. -/
def Reading.indented : Reading Yaml.Node where
  fields? := Yaml.Node.fields?
  nat? bound
    | .scalar true _ text => Yaml.nat? bound text
    | _ => none
  real?
    | .scalar true _ text => Yaml.real? text
    | _ => none
  text?
    | .scalar _ _ text => some (String.ofList text)
    | _ => none
  absent? := Yaml.Node.absent?

/-! ### Formats -/

/-- The languages in which a file of settings may be written. -/
inductive Format
  | tables
  | indented
deriving DecidableEq, Repr

namespace Format

/-- The name that messages use. -/
def name : Format → String
  | tables => "TOML"
  | indented => "YAML"

/-- The format of the files with an extension, in letters of either case. -/
def ofExtension? (extension : String) : Option Format :=
  match String.ofList (extension.toList.map Char.toLower) with
  | "toml" => some tables
  | "yaml" | "yml" => some indented
  | _ => none

/-- The settings in a text; a text without a document leaves all of them out. -/
def read? (f : Format) (cs : List Char) : Option Config :=
  match f with
  | tables => (Toml.read? cs).bind (Config.read? .tables)
  | indented =>
    match Yaml.Node.parse? cs with
    | none => none
    | some none => some .default
    | some (some node) => Config.read? .indented node

end Format

end SpanRelay
