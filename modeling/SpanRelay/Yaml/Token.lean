import SpanRelay.Yaml.Cursor

/-! # Tokens of the indented format

`Token.scan?` splits a text into tokens. Indentation becomes tokens that open and close collections.
That something is a key shows only at the colon behind it, so the `Scanner` remembers where a key
may have begun and puts the tokens for it in there. -/

namespace SpanRelay.Yaml

/-- How a scalar is written. -/
inductive Style
  | plain
  | quoted
  /-- The lines of a block as they stand. -/
  | literal
  | folded
deriving DecidableEq, Repr

/-- A token of the format. -/
inductive Token
  | version (major minor : Nat)
  /-- A handle of tags is declared, with the text that it stands for. -/
  | tagHandle (handle start : List Char)
  | documentStart
  | documentEnd
  | sequenceStart
  | mappingStart
  /-- A collection that was opened by indentation ends. -/
  | blockEnd
  | openBracket
  | closeBracket
  | openBrace
  | closeBrace
  | comma
  /-- The hyphen before an item. -/
  | item
  | key
  | value
  | alias (name : List Char)
  | anchor (name : List Char)
  | tag (handle suffix : List Char)
  | scalar (style : Style) (text : List Char)
deriving DecidableEq, Repr

/-- A place where a key may have begun. -/
structure PossibleKey where
  required : Bool
  /-- How many tokens there are before it. -/
  position : Nat
  start : Cursor

/-- The reading of a text up to a cursor. -/
structure Scanner where
  cursor : Cursor
  tokens : List Token
  /-- The column of the innermost collection that was opened by indentation; minus one outside. -/
  indent : Int
  /-- The columns of the collections around it. -/
  outer : List Int
  keyAllowed : Bool
  possibleKey : Option PossibleKey
  /-- The places in the brackets around the innermost ones; one for each bracket that is open. -/
  outerKeys : List (Option PossibleKey)

namespace Scanner

/-- The scanner at the start of a text, behind the mark by which the text may begin. The mark takes
up the first column. -/
def ofText (cs : List Char) : Scanner :=
  let c := Cursor.ofText cs
  ⟨if c.peek? = some byteOrderMark then c.skip 1 else c, [], -1, [], true, none, []⟩

/-- Whether the cursor is inside brackets. -/
def inFlow (s : Scanner) : Bool := !s.outerKeys.isEmpty

def add (s : Scanner) (t : Token) : Scanner := { s with tokens := s.tokens ++ [t] }

def skip (s : Scanner) (n : Nat) : Scanner := { s with cursor := s.cursor.skip n }

/-- The scanner behind an indicator of `n` characters that is a token. -/
def take (s : Scanner) (n : Nat) (t : Token) : Scanner := (s.skip n).add t

/-! ### Blanks and indentation -/

/-- The scanner at the next character that is neither blank nor part of a comment. At the end of a
line outside brackets a key may begin. -/
def toContent : Nat → Scanner → Scanner
  | 0, s => s
  | fuel + 1, s =>
    let c := s.cursor
    let c := c.skipWhile fun d => d = ' ' || d = '\t' && (s.inFlow || !s.keyAllowed)
    let c := if c.peek? = some '#' then c.skipWhile fun d => !isBreak d else c
    if c.peek?.any isBreak then
      toContent fuel { s with cursor := c.lineBreak.2, keyAllowed := s.keyAllowed || !s.inFlow }
    else { s with cursor := c }

/-- The scanner with the collections closed that are indented further than a column. -/
def unroll (column : Int) : Nat → Scanner → Scanner
  | 0, s => s
  | fuel + 1, s =>
    if s.inFlow || s.indent ≤ column then s
    else
      unroll column fuel
        { s.add .blockEnd with indent := s.outer.headD (-1), outer := s.outer.tail }

/-- The scanner with all collections closed that are indented further than a column. -/
def unrollTo (s : Scanner) (column : Int) : Scanner := s.unroll column (s.outer.length + 1)

/-- The scanner with a collection opened at a column and a position among the tokens, if the column
is further right than the innermost collection. -/
def roll (s : Scanner) (column position : Nat) (t : Token) : Scanner :=
  if s.inFlow || (column : Int) ≤ s.indent then s
  else
    { s with
      indent := column
      outer := s.indent :: s.outer
      tokens := s.tokens.take position ++ t :: s.tokens.drop position }

/-- The scanner with a collection opened here. -/
def rollHere (s : Scanner) (t : Token) : Scanner := s.roll s.cursor.column s.tokens.length t

/-! ### Keys -/

/-- The greatest number of characters between the start of a key and its colon. -/
def maxKeyLength : Nat := 1024

/-- Whether a place is too far back for a key: on another line, or too many characters ago. -/
def isStale (s : Scanner) (k : PossibleKey) : Bool :=
  k.start.line < s.cursor.line || k.start.index + maxKeyLength < s.cursor.index

/-- The scanner without a possible key; a key that is required must not be given up. -/
def dropKey? (s : Scanner) : Option Scanner :=
  if s.possibleKey.any PossibleKey.required then none else some { s with possibleKey := none }

/-- The scanner with this place remembered, if a key may begin here. -/
def saveKey? (s : Scanner) : Option Scanner :=
  if s.keyAllowed then do
    let s ← s.dropKey?
    let required := !s.inFlow && s.indent = s.cursor.column
    return { s with possibleKey := some ⟨required, s.tokens.length, s.cursor⟩ }
  else some s

/-- The scanner with the remembered place, if it is not stale; a stale place that requires a key is
an error. -/
def freshKey? (s : Scanner) : Option (Option PossibleKey) :=
  match s.possibleKey with
  | some k => if s.isStale k then (if k.required then none else some none) else some (some k)
  | none => some none

/-! ### Indicators -/

/-- A bracket or brace that opens a collection, which may itself be a key. -/
def openFlow? (s : Scanner) (t : Token) : Option Scanner := do
  let s ← s.saveKey?
  return { s.take 1 t with
    outerKeys := s.possibleKey :: s.outerKeys, possibleKey := none, keyAllowed := true }

/-- A bracket or brace that closes a collection. The place remembered before the collection counts
again. -/
def closeFlow? (s : Scanner) (t : Token) : Option Scanner := do
  let s ← s.dropKey?
  return { s.take 1 t with
    possibleKey := s.outerKeys.headD none, outerKeys := s.outerKeys.tail, keyAllowed := false }

def comma? (s : Scanner) : Option Scanner := do
  let s ← s.dropKey?
  return { s.take 1 .comma with keyAllowed := true }

/-- The scanner with a collection opened here outside brackets, where it is allowed. -/
def beginBlock? (s : Scanner) (t : Token) : Option Scanner :=
  if s.inFlow then some s else if s.keyAllowed then some (s.rollHere t) else none

/-- The hyphen before an item. -/
def item? (s : Scanner) : Option Scanner := do
  let s ← s.beginBlock? .sequenceStart
  let s ← s.dropKey?
  return { s.take 1 .item with keyAllowed := true }

/-- The question mark before a key. -/
def key? (s : Scanner) : Option Scanner := do
  let s ← s.beginBlock? .mappingStart
  let s ← s.dropKey?
  return { s.take 1 .key with keyAllowed := !s.inFlow }

/-- The colon before a value: what began at the remembered place was the key. -/
def value? (s : Scanner) : Option Scanner := do
  match ← s.freshKey? with
  | some k =>
    let s := { s with
      tokens := s.tokens.take k.position ++ Token.key :: s.tokens.drop k.position
      possibleKey := none
      keyAllowed := false }
    return (s.roll k.start.column k.position .mappingStart).take 1 .value
  | none =>
    let s ← s.beginBlock? .mappingStart
    return { s.take 1 .value with keyAllowed := !s.inFlow, possibleKey := none }

/-! ### Names and tags -/

/-- An anchor or an alias: an indicator with a name behind it. -/
def name? (s : Scanner) (t : List Char → Token) : Option Scanner := do
  let s ← s.saveKey?
  let c := s.cursor.skip 1
  let name := c.rest.takeWhile isWordChar
  let c := c.skip name.length
  let ended := atBlankOrEnd c.rest
    || c.peek?.any fun d => ['?', ':', ',', ']', '}', '%', '@', '\x60'].contains d
  if name.isEmpty || !ended then none
  else some { (s.add (t name)) with cursor := c, keyAllowed := false }

/-- A character of the suffix of a tag. -/
def isTagChar (verbatim : Bool) (c : Char) : Bool :=
  isWordChar c || [';', '/', '?', ':', '@', '&', '=', '+', '$', '.', '%', '!', '~', '*', '\'',
    '(', ')'].contains c || (verbatim && [',', '[', ']'].contains c)

/-- A tag: its handle, its suffix and the place behind. -/
def tag? (c : Cursor) : Option (List Char × List Char × Cursor) :=
  if c.looksAt ['!', '<'] then
    let c := c.skip 2
    let suffix := c.rest.takeWhile (isTagChar true)
    let c := c.skip suffix.length
    if suffix.isEmpty || c.peek? ≠ some '>' then none else some ([], suffix, c.skip 1)
  else
    let word := (c.rest.tail.takeWhile isWordChar)
    let named := (c.rest.drop (word.length + 1)).head? = some '!'
    let handle := if named then '!' :: (word ++ ['!']) else ['!']
    let c := c.skip handle.length
    let suffix := c.rest.takeWhile (isTagChar false)
    if named && suffix.isEmpty then none
    else if suffix.isEmpty then some ([], ['!'], c)
    else some (handle, suffix, c.skip suffix.length)

/-- A tag before a node. -/
def tagged? (s : Scanner) : Option Scanner := do
  let s ← s.saveKey?
  let (handle, suffix, c) ← tag? s.cursor
  if atBlankOrEnd c.rest || (s.inFlow && c.peek? = some ',') then
    some { s.add (.tag handle suffix) with cursor := c, keyAllowed := false }
  else none

/-! ### Scalars -/

/-- A scalar in quotes. -/
def quotedScalar? (s : Scanner) (double : Bool) : Option Scanner := do
  let s ← s.saveKey?
  let c := s.cursor.skip 1
  let (text, c) ← quoted? double (c.rest.length + 1) [] c
  return { s.add (.scalar .quoted text) with cursor := c, keyAllowed := false }

/-- A plain scalar. A key may begin behind it if a line has ended. -/
def plainScalar? (s : Scanner) : Option Scanner := do
  let s ← s.saveKey?
  let (text, broken, c) ←
    plain? s.inFlow (s.indent + 1).toNat (s.cursor.rest.length + 1) .none [] s.cursor
  return { s.add (.scalar .plain text) with cursor := c, keyAllowed := broken }

/-- A scalar line by line. It is never a key, but one may follow it. -/
def blockScalar? (s : Scanner) (folded : Bool) : Option Scanner := do
  let s ← s.dropKey?
  let (text, c) ← block? folded s.indent (s.cursor.skip 1)
  let style := if folded then Style.folded else .literal
  return { s.add (.scalar style text) with cursor := c, keyAllowed := true }

/-! ### Directives and documents -/

/-- The scanner with everything closed, before a mark between documents. -/
def closeAll? (s : Scanner) : Option Scanner := do
  let s ← (s.unrollTo (-1)).dropKey?
  return { s with keyAllowed := false }

/-- The token of a directive with its name and its arguments. -/
def directive? : List (List Char) → Option Token
  | [name, arg] =>
    if name = ['Y', 'A', 'M', 'L'] then do
      let (major, rest) := Text.spanDecimal arg
      let minor := rest.drop 1
      if rest.head? = some '.' then
        return .version (← Text.numeral? 10 major) (← Text.numeral? 10 minor)
      else none
    else none
  | [name, handle, first] =>
    let word := (handle.drop 1).dropLast
    let isHandle := handle = ['!']
      || 2 ≤ handle.length && handle.head? = some '!' && handle.getLast? = some '!'
        && word.all isWordChar
    if name = ['T', 'A', 'G'] && isHandle && first.all (isTagChar true) then
      some (.tagHandle handle first)
    else none
  | _ => none

/-- The words of a line, without a comment. -/
def words (cs : List Char) : List (List Char) :=
  let step (ws : List (List Char) × List Char) (c : Char) : List (List Char) × List Char :=
    if isBlank c then (if ws.2.isEmpty then ws else (ws.1 ++ [ws.2], []))
    else (ws.1, ws.2 ++ [c])
  let (ws, last) := cs.foldl step ([], [])
  (if last.isEmpty then ws else ws ++ [last]).takeWhile fun w => w.head? ≠ some '#'

/-- A line with a directive, before a document. -/
def directiveLine? (s : Scanner) : Option Scanner := do
  let s ← s.closeAll?
  let line := s.cursor.rest.tail.takeWhile fun c => !isBreak c
  let t ← directive? (words line)
  return s.take (line.length + 1) t

/-- A mark between documents. -/
def documentMark? (s : Scanner) (t : Token) : Option Scanner := do
  let s ← s.closeAll?
  return s.take 3 t

/-! ### The whole text -/

/-- Whether a plain scalar may begin with the characters here. -/
def startsPlain (inFlow : Bool) : List Char → Bool
  | [] => false
  | c :: cs =>
    let marks := ['-', '?', ':', ',', '[', ']', '{', '}', '#', '&', '*', '!', '|', '>', '\'',
      '"', '%', '@', '\x60']
    (!isBlank c && !isBreak c && !marks.contains c)
      || (c = '-' && !cs.head?.any isBlank)
      || (!inFlow && (c = '?' || c = ':') && !atBlankOrEnd cs)

/-- The scanner behind the next token, or `none` if no token can begin here. -/
def next? (s : Scanner) : Option Scanner :=
  let c := s.cursor
  match c.rest with
  | [] => some s
  | d :: rest =>
    let apart := atBlankOrEnd rest
    if c.column = 0 && d = '%' then s.directiveLine?
    else if c.atDocumentMark then
      s.documentMark? (if d = '-' then .documentStart else .documentEnd)
    else if d = '[' then s.openFlow? .openBracket
    else if d = '{' then s.openFlow? .openBrace
    else if d = ']' then s.closeFlow? .closeBracket
    else if d = '}' then s.closeFlow? .closeBrace
    else if d = ',' then s.comma?
    else if d = '-' && apart then s.item?
    else if d = '?' && (s.inFlow || apart) then s.key?
    else if d = ':' && (s.inFlow || apart) then s.value?
    else if d = '*' then s.name? .alias
    else if d = '&' then s.name? .anchor
    else if d = '!' then s.tagged?
    else if d = '|' && !s.inFlow then s.blockScalar? false
    else if d = '>' && !s.inFlow then s.blockScalar? true
    else if d = '\'' then s.quotedScalar? false
    else if d = '"' then s.quotedScalar? true
    else if startsPlain s.inFlow c.rest then s.plainScalar?
    else none

/-- The scanner at the end of the text. -/
def run? : Nat → Scanner → Option Scanner
  | 0, _ => none
  | fuel + 1, s =>
    let s := s.toContent (s.cursor.rest.length + 1)
    let s := s.unrollTo s.cursor.column
    if s.cursor.rest.isEmpty then (s.unrollTo (-1)).dropKey? else do run? fuel (← s.next?)

end Scanner

/-- The tokens of a text, if it consists of tokens and of characters that may stand in it. -/
def Token.scan? (cs : List Char) : Option (List Token) :=
  if cs.all isAllowed then ((Scanner.ofText cs).run? (cs.length + 1)).map Scanner.tokens else none

end SpanRelay.Yaml
