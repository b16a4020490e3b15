import SpanRelay.Toml.Scalar

/-! # Documents of the settings format with tables

A document is a list of `Part`s: entries, and headers that open a table or one more element of a
list of tables. `parts?` reads them from a text. An `Item` is what a key stands for while the parts
are put together; `Members.ofParts?` puts them together and refuses what would define a key twice,
and `read?` gives the whole document as a value. -/

namespace SpanRelay.Toml

open SpanRelay.Text

/-! ### Keys -/

/-- A path of keys: the tables on the way and the last key. -/
structure Path where
  tables : List String
  key : String

/-- The path with the given keys, if there are any. -/
def Path.ofKeys? (keys : List String) : Option Path :=
  keys.getLast?.map fun k => ⟨keys.dropLast, k⟩

/-- A character of a key that stands without quotes. -/
def isKeyChar (c : Char) : Bool := c.isAlphanum || c = '_' || c = '-'

/-- The text without the blanks that it starts with. -/
def dropBlanks (cs : List Char) : List Char := cs.dropWhile isBlank

/-- One key with the blanks around it, and what follows. -/
def simpleKey? (cs : List Char) : Option (String × List Char) := do
  let cs := dropBlanks cs
  let (key, rest) ←
    if cs.head?.any fun c => c = '"' || c = '\'' then line? cs
    else
      let key := cs.takeWhile isKeyChar
      if key.isEmpty then none else some (key, cs.drop key.length)
  return (String.ofList key, dropBlanks rest)

/-- One key or several with dots between them, and what follows. -/
def keys? : Nat → List Char → Option (List String × List Char)
  | 0, _ => none
  | fuel + 1, cs => do
    let (key, rest) ← simpleKey? cs
    match rest with
    | '.' :: rest => (keys? fuel rest).map fun (keys, rest) => (key :: keys, rest)
    | rest => return ([key], rest)

/-- How deep tables and lists may go into each other. -/
def depthLimit : Nat := 79

/-- A path of at most `depthLimit` keys, and what follows. -/
def path? (cs : List Char) : Option (Path × List Char) := do
  let (keys, rest) ← keys? depthLimit cs
  return (← Path.ofKeys? keys, rest)

/-! ### Tables -/

/-- What made a table. -/
inductive Origin
  /-- A header of its own. -/
  | header
  /-- The header of a table inside it. -/
  | inner
  /-- An entry with dots in its key. -/
  | dotted
deriving DecidableEq, Repr

/-- What a key stands for. -/
inductive Item
  | value (v : Json)
  | table (origin : Origin) (members : List (String × Item))
  /-- A list of tables, each with a header of its own. -/
  | tables (elements : List (List (String × Item)))

/-- The members of a table while it is put together, in the order in which they came. -/
abbrev Members := List (String × Item)

namespace Members

/-- What a key stands for. -/
def find? (ms : Members) (key : String) : Option Item :=
  (List.find? (fun m => m.1 = key) ms).map Prod.snd

/-- The members with what a key stands for replaced, at the same place. -/
def replace (ms : Members) (key : String) (item : Item) : Members :=
  ms.map fun m => if m.1 = key then (key, item) else m

/-- The members of a table with the table at the end of a path changed. The tables on the way are
made if they are missing; of a list of tables the last counts. An entry with dots in its key does
not go into a table with a header of its own. -/
def change? (dotted : Bool) (f : Origin → Members → Option Members) :
    List String → Origin → Members → Option Members
  | [], origin, ms => f origin ms
  | key :: path, _, ms =>
    match ms.find? key with
    | none => do
      let origin := if dotted then Origin.dotted else .inner
      return ms ++ [(key, .table origin (← change? dotted f path origin []))]
    | some (.value _) => none
    | some (.table origin inside) =>
      if dotted && origin = .header then none
      else do return ms.replace key (.table origin (← change? dotted f path origin inside))
    | some (.tables elements) => do
      let last ← change? dotted f path .header (← elements.getLast?)
      return ms.replace key (.tables (elements.dropLast ++ [last]))

/-- The members with one more entry. Where the key has dots, the table it goes into is one that such
keys have made. -/
def addEntry? (p : Path) (v : Json) (ms : Members) : Option Members :=
  change? true (fun origin ms =>
    if decide (origin = .dotted) = p.tables.isEmpty || (ms.find? p.key).isSome then none
    else some (ms ++ [(p.key, .value v)])) p.tables .header ms

/-- The members with a table opened by a header: a new one, or one that so far only the headers of
tables inside it have made. -/
def openTable? (p : Path) (ms : Members) : Option Members :=
  change? false (fun _ ms =>
    match ms.find? p.key with
    | none => some (ms ++ [(p.key, .table .header [])])
    | some (.table .inner inside) => some (ms.replace p.key (.table .header inside))
    | some _ => none) p.tables .header ms

/-- The members with one more element of a list of tables. -/
def openElement? (p : Path) (ms : Members) : Option Members :=
  change? false (fun _ ms =>
    match ms.find? p.key with
    | none => some (ms ++ [(p.key, .tables [[]])])
    | some (.tables elements) => some (ms.replace p.key (.tables (elements ++ [[]])))
    | some _ => none) p.tables .header ms

end Members

mutual

def Item.toJson : Item → Json
  | .value v => v
  | .table _ ms => .object (Members.toJson ms)
  | .tables elements => .list (elementsToJson elements)

def Members.toJson : List (String × Item) → List (String × Json)
  | [] => []
  | (key, item) :: ms => (key, item.toJson) :: Members.toJson ms

def elementsToJson : List (List (String × Item)) → List Json
  | [] => []
  | ms :: elements => .object (Members.toJson ms) :: elementsToJson elements

end

/-! ### Values -/

/-- What follows the comment that begins here, up to the end of the line; all if there is none. -/
def dropComment : List Char → List Char
  | '#' :: cs => cs.dropWhile isPlain
  | cs => cs

/-- What follows the blanks, comments and ends of lines that stand here. -/
def dropLines : Nat → List Char → List Char
  | 0, cs => cs
  | fuel + 1, cs =>
    match newline? (dropComment (dropBlanks cs)) with
    | some rest => dropLines fuel rest
    | none => dropComment (dropBlanks cs)

/-- What follows blanks, comments and ends of lines. -/
def dropSpace (cs : List Char) : List Char := dropLines (cs.length + 1) cs

/-- The values of a list up to its closing bracket, and what follows; a comma may stand behind the
last. -/
def items? (value? : List Char → Option (Json × List Char)) :
    Nat → List Char → Option (List Json × List Char)
  | 0, _ => none
  | fuel + 1, cs =>
    match dropSpace cs with
    | ']' :: rest => some ([], rest)
    | cs => do
      let (v, rest) ← value? cs
      match dropSpace rest with
      | ']' :: rest => return ([v], rest)
      | ',' :: rest => (items? value? fuel rest).map fun (vs, rest) => (v :: vs, rest)
      | _ => none

/-- An entry, and what follows: a path, an equals sign and a value with blanks around them. -/
def entry? (value? : List Char → Option (Json × List Char)) (cs : List Char) :
    Option ((Path × Json) × List Char) := do
  let (p, rest) ← path? cs
  let (v, rest) ← value? (dropBlanks (← mark? '=' rest))
  return ((p, v), dropBlanks rest)

/-- The entries of a table in braces up to the closing one, and what follows. -/
def entries? (value? : List Char → Option (Json × List Char)) :
    Nat → List Char → Option (List (Path × Json) × List Char)
  | 0, _ => none
  | fuel + 1, cs => do
    let (e, rest) ← entry? value? cs
    match rest with
    | '}' :: rest => return ([e], rest)
    | ',' :: rest => (entries? value? fuel rest).map fun (es, rest) => (e :: es, rest)
    | _ => none

/-- A table in braces as a value. -/
def braced? (entries : List (Path × Json)) : Option Json :=
  (entries.foldlM (fun ms e => Members.addEntry? e.1 e.2 ms) []).map fun ms =>
    .object (Members.toJson ms)

/-- A value in which brackets and braces go at most `depth` levels deep, and what follows. -/
def value? (depth : Nat) (cs : List Char) : Option (Json × List Char) :=
  match depth, cs with
  | 0, '[' :: _ | 0, '{' :: _ => none
  | depth + 1, '[' :: rest =>
    (items? (value? depth) (rest.length + 1) rest).map fun (vs, rest) => (.list vs, rest)
  | depth + 1, '{' :: rest =>
    match dropBlanks rest with
    | '}' :: rest => some (.object [], rest)
    | rest => do
      let (es, rest) ← entries? (value? depth) (rest.length + 1) rest
      return (← braced? es, rest)
  | _, cs =>
    if cs.head?.any fun c => c = '"' || c = '\'' then
      (text? cs).map fun (text, rest) => (.text (String.ofList text), rest)
    else scalar? cs

/-! ### Documents -/

/-- A part of a document. -/
inductive Part
  | entry (path : Path) (value : Json)
  /-- A header that opens a table. -/
  | table (path : Path)
  /-- A header that opens one more element of a list of tables. -/
  | element (path : Path)

/-- What follows the end of a line, behind blanks and a comment; at the end of the text, nothing. -/
def lineEnd? (cs : List Char) : Option (List Char) :=
  match dropComment (dropBlanks cs) with
  | [] => some []
  | cs => newline? cs

/-- What follows a text, if it stands here. -/
def marks? (marks cs : List Char) : Option (List Char) :=
  if marks.isPrefixOf cs then some (cs.drop marks.length) else none

/-- The part at the start of a text, and what follows. -/
def part? (cs : List Char) : Option (Part × List Char) :=
  match cs with
  | '[' :: '[' :: rest => do
    let (p, rest) ← path? rest
    return (.element p, ← marks? [']', ']'] rest)
  | '[' :: rest => do
    let (p, rest) ← path? rest
    return (.table p, ← marks? [']'] rest)
  | cs => do
    let ((p, v), rest) ← entry? (value? depthLimit) cs
    return (.entry p v, rest)

/-- The parts of a text, each on lines of its own. -/
def partsFrom? : Nat → List Char → Option (List Part)
  | 0, _ => none
  | fuel + 1, cs =>
    match dropSpace cs with
    | [] => some []
    | cs => do
      let (p, rest) ← part? cs
      return p :: (← partsFrom? fuel (← lineEnd? rest))

/-- The parts of a document; a byte order mark in front does not count. -/
def parts? (cs : List Char) : Option (List Part) :=
  let cs := if cs.head? = some '\uFEFF' then cs.tail else cs
  partsFrom? (cs.length + 1) cs

/-- The members of the document with some parts; `here` is the path of the table that is open. -/
def Members.addParts? : List String → Members → List Part → Option Members
  | _, ms, [] => some ms
  | here, ms, .entry p v :: parts => do
    addParts? here (← Members.change? false (fun _ => Members.addEntry? p v) here .header ms) parts
  | _, ms, .table p :: parts => do addParts? (p.tables ++ [p.key]) (← ms.openTable? p) parts
  | _, ms, .element p :: parts => do addParts? (p.tables ++ [p.key]) (← ms.openElement? p) parts

/-- The document as a value, if no key in it is defined twice. -/
def read? (cs : List Char) : Option Json := do
  return .object (Members.toJson (← Members.addParts? [] [] (← parts? cs)))

end SpanRelay.Toml
