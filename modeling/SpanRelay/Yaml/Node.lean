import SpanRelay.Map.Table
import SpanRelay.Yaml.Token

/-! # Documents of the indented format

A `Node` is a scalar, a sequence or a mapping. `Node.ofTokens?` builds the one document that a text
holds, and `Node.parse?` reads it from the text. -/

namespace SpanRelay.Yaml

/-- A part of a document. -/
inductive Node
  /-- A text, with whether it is written without quotes and with its tag. -/
  | scalar (plain : Bool) (tag : Option (List Char)) (text : List Char)
  | sequence (items : List Node)
  | mapping (entries : List (Node × Node))
  /-- An alias of a node that it is a part of. -/
  | cycle

/-- What stands where a node is left out: a plain scalar without text. -/
def Node.missing : Node := .scalar true none []

/-- The nodes of the anchors that were met; none for a node that has not ended yet. -/
abbrev Anchors := Map.Table (List Char) (Option Node)

/-- A position among the tokens with the anchors met so far and the handles of tags that may be
used, the ones that count first. -/
structure Reader where
  tokens : List Token
  anchors : Anchors
  /-- Each handle with the text that it stands for. -/
  handles : List (List Char × List Char)

namespace Reader

def skip (r : Reader) : Reader := { r with tokens := r.tokens.tail }

def peek? (r : Reader) : Option Token := r.tokens.head?

/-- Whether the next token is one of the given ones, or there is none. -/
def endsAt (r : Reader) (ts : List Token) : Bool := r.peek?.all ts.contains

/-- The properties before a node. -/
structure Properties where
  anchor : Option (List Char)
  tag : Option (List Char)

def Properties.present (p : Properties) : Bool := p.anchor.isSome || p.tag.isSome

/-- The node in the place of a missing one that has properties. -/
def Properties.missing? (p : Properties) : Option Node :=
  if p.present then some (.scalar true p.tag []) else none

/-- The scalar with the properties. The tag `!` says only that the scalar has none. -/
def Properties.scalar (p : Properties) (plain : Bool) (text : List Char) : Node :=
  .scalar plain (p.tag.filter (· ≠ ['!'])) text

/-- The tag with a handle, if the handle may be used; a tag in full has none. -/
def tag? (r : Reader) (handle suffix : List Char) : Option (List Char) :=
  if handle.isEmpty then some suffix
  else (r.handles.find? fun h => h.1 = handle).map fun h => h.2 ++ suffix

/-- The properties before a node: an anchor and a tag at most, in either order. -/
def properties? (r : Reader) : Option (Properties × Reader) :=
  match r.tokens with
  | .anchor a :: .tag handle suffix :: rest | .tag handle suffix :: .anchor a :: rest =>
    (r.tag? handle suffix).map fun t => (⟨some a, some t⟩, { r with tokens := rest })
  | .anchor a :: rest => some (⟨some a, none⟩, { r with tokens := rest })
  | .tag handle suffix :: rest =>
    (r.tag? handle suffix).map fun t => (⟨none, some t⟩, { r with tokens := rest })
  | _ => some (⟨none, none⟩, r)

/-- The reader with the node of an anchor known. -/
def learn (r : Reader) (p : Properties) (n : Option Node) : Reader :=
  p.anchor.elim r fun a => { r with anchors := r.anchors.insert a n }

mutual

/-- A node. Outside brackets a collection may be opened by indentation, and where `indentless` is
set, the items of a sequence may stand in the column of the mapping around it. -/
def node? : Nat → Bool → Bool → Reader → Option (Node × Reader)
  | 0, _, _, _ => none
  | fuel + 1, block, indentless, r =>
    match r.peek? with
    | some (.alias a) => do
      let n ← r.anchors.get? a
      return (n.getD .cycle, r.skip)
    | _ => do
      let (p, r) ← r.properties?
      let begun := r.learn p none
      let (n, r) ←
        match r.peek? with
        | some (.scalar style text) => some (p.scalar (style = .plain) text, r.skip)
        | some .item =>
          if indentless then do
            let (ns, r) ← looseItems? fuel begun
            return (.sequence ns, r)
          else p.missing?.map fun n => (n, r)
        | some .openBracket => do
          let (ns, r) ← flowItems? fuel true begun.skip
          return (.sequence ns, r)
        | some .openBrace => do
          let (es, r) ← flowEntries? fuel true begun.skip
          return (.mapping es, r)
        | some .sequenceStart =>
          if block then do
            let (ns, r) ← blockItems? fuel begun.skip
            return (.sequence ns, r)
          else p.missing?.map fun n => (n, r)
        | some .mappingStart =>
          if block then do
            let (es, r) ← blockEntries? fuel begun.skip
            return (.mapping es, r)
          else p.missing?.map fun n => (n, r)
        | _ => p.missing?.map fun n => (n, r)
      return (n, r.learn p (some n))

/-- The items of a sequence that was opened by indentation, up to its end. -/
def blockItems? : Nat → Reader → Option (List Node × Reader)
  | 0, _ => none
  | fuel + 1, r =>
    match r.peek? with
    | some .item => do
      let (n, r) ← nodeUnless? fuel true false [.item, .blockEnd] r.skip
      let (ns, r) ← blockItems? fuel r
      return (n :: ns, r)
    | some .blockEnd => some ([], r.skip)
    | _ => none

/-- The items of a sequence in the column of the mapping around it. -/
def looseItems? : Nat → Reader → Option (List Node × Reader)
  | 0, _ => none
  | fuel + 1, r =>
    match r.peek? with
    | some .item => do
      let (n, r) ← nodeUnless? fuel true false [.item, .key, .value, .blockEnd] r.skip
      let (ns, r) ← looseItems? fuel r
      return (n :: ns, r)
    | _ => some ([], r)

/-- The entries of a mapping that was opened by indentation, up to its end. -/
def blockEntries? : Nat → Reader → Option (List (Node × Node) × Reader)
  | 0, _ => none
  | fuel + 1, r =>
    match r.peek? with
    | some .key => do
      let (k, r) ← nodeUnless? fuel true true [.key, .value, .blockEnd] r.skip
      let (v, r) ←
        if r.peek? = some .value then nodeUnless? fuel true true [.key, .value, .blockEnd] r.skip
        else some (.missing, r)
      let (es, r) ← blockEntries? fuel r
      return ((k, v) :: es, r)
    | some .blockEnd => some ([], r.skip)
    | _ => none

/-- The items of a sequence in brackets, up to the closing one; an item may be a single pair. -/
def flowItems? : Nat → Bool → Reader → Option (List Node × Reader)
  | 0, _, _ => none
  | fuel + 1, first, r =>
    if r.peek? = some .closeBracket then some ([], r.skip)
    else if !first && r.peek? ≠ some .comma then none
    else
      let r := if first then r else r.skip
      match r.peek? with
      | some .closeBracket => some ([], r.skip)
      | some .key => do
        let (k, r) ← nodeUnless? fuel false false [.value, .comma, .closeBracket] r.skip
        let (v, r) ←
          if r.peek? = some .value then nodeUnless? fuel false false [.comma, .closeBracket] r.skip
          else some (.missing, r)
        let (ns, r) ← flowItems? fuel false r
        return (.mapping [(k, v)] :: ns, r)
      | _ => do
        let (n, r) ← node? fuel false false r
        let (ns, r) ← flowItems? fuel false r
        return (n :: ns, r)

/-- The entries of a mapping in braces, up to the closing one; a value may be missing. -/
def flowEntries? : Nat → Bool → Reader → Option (List (Node × Node) × Reader)
  | 0, _, _ => none
  | fuel + 1, first, r =>
    if r.peek? = some .closeBrace then some ([], r.skip)
    else if !first && r.peek? ≠ some .comma then none
    else
      let r := if first then r else r.skip
      match r.peek? with
      | some .closeBrace => some ([], r.skip)
      | some .key => do
        let (k, r) ← nodeUnless? fuel false false [.value, .comma, .closeBrace] r.skip
        let (v, r) ←
          if r.peek? = some .value then nodeUnless? fuel false false [.comma, .closeBrace] r.skip
          else some (.missing, r)
        let (es, r) ← flowEntries? fuel false r
        return ((k, v) :: es, r)
      | _ => do
        let (k, r) ← node? fuel false false r
        let (es, r) ← flowEntries? fuel false r
        return ((k, .missing) :: es, r)

/-- A node, missing before the given tokens. -/
def nodeUnless? : Nat → Bool → Bool → List Token → Reader → Option (Node × Reader)
  | 0, _, _, _, _ => none
  | fuel + 1, block, indentless, ts, r =>
    if r.endsAt ts then some (.missing, r) else node? fuel block indentless r

end

/-! ### Documents -/

/-- The directives in front: no second version, and none of a later kind. -/
def directives? : List Token → Bool → List (List Char × List Char) →
    Option (List (List Char × List Char) × List Token)
  | .version major minor :: ts, versioned, handles =>
    if versioned || major ≠ 1 || (minor ≠ 1 && minor ≠ 2) then none
    else directives? ts true handles
  | .tagHandle handle start :: ts, versioned, handles =>
    if handles.any fun h => h.1 = handle then none
    else directives? ts versioned ((handle, start) :: handles)
  | ts, _, handles => some (handles, ts)

/-- The start of the tags of the format itself. -/
def commonTag : List Char := "tag:yaml.org,2002:".toList

/-- The handles that may always be used. -/
def commonHandles : List (List Char × List Char) := [(['!'], ['!']), (['!', '!'], commonTag)]

/-- The node of the only document, and whether the document was there at all: the tokens behind its
end may be further marks of an end, but no second document. -/
def document? (ts : List Token) : Option (Option Node) :=
  match ts with
  | [] => some none
  | _ => do
    let (declared, rest) ← directives? ts false []
    let explicit := rest.head? = some .documentStart
    if rest.length < ts.length && !explicit then none
    else
      let r : Reader := ⟨if explicit then rest.tail else rest, .empty, declared ++ commonHandles⟩
      let fuel := 6 * ts.length + 12
      let (n, r) ←
        if explicit then nodeUnless? fuel true false [.documentStart, .documentEnd] r
        else node? fuel true false r
      if (r.tokens.dropWhile (· = .documentEnd)).isEmpty then some (some n) else none

end Reader

/-- The document of the tokens of a text; none for a text without tokens. -/
def Node.ofTokens? (ts : List Token) : Option (Option Node) := Reader.document? ts

/-- The document of a text; none for a text without one. -/
def Node.parse? (cs : List Char) : Option (Option Node) := (Token.scan? cs).bind Node.ofTokens?

end SpanRelay.Yaml
