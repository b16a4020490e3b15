import SpanRelay.Text.Digits
import SpanRelay.Yaml.Character

/-! # Cursors

A `Cursor` is a place in a text, with the line and the column it has there. The scalars of the
format are read from a cursor to the cursor behind them. -/

namespace SpanRelay.Yaml

/-- A place in a text. -/
structure Cursor where
  rest : List Char
  index : Nat
  line : Nat
  column : Nat
deriving Repr

namespace Cursor

def ofText (cs : List Char) : Cursor := ⟨cs, 0, 0, 0⟩

/-- The place `n` characters further on the same line. -/
def skip (c : Cursor) (n : Nat) : Cursor :=
  ⟨c.rest.drop n, c.index + n, c.line, c.column + n⟩

/-- The place behind the characters in front that a test accepts, all on the same line. -/
def skipWhile (p : Char → Bool) (c : Cursor) : Cursor := c.skip (c.rest.takeWhile p).length

def peek? (c : Cursor) : Option Char := c.rest.head?

/-- Whether the given text stands here. -/
def looksAt (c : Cursor) (word : List Char) : Bool := word.isPrefixOf c.rest

/-- The end of the line here as it counts in a scalar, and the place behind it. At another
character nothing is taken. -/
def lineBreak (c : Cursor) : List Char × Cursor :=
  match c.rest with
  | '\r' :: '\n' :: rest => (['\n'], ⟨rest, c.index + 2, c.line + 1, 0⟩)
  | b :: rest =>
    if b = '\n' ∨ b = '\r' ∨ b = '\u0085' then (['\n'], ⟨rest, c.index + 1, c.line + 1, 0⟩)
    else if isBreak b then ([b], ⟨rest, c.index + 1, c.line + 1, 0⟩)
    else ([], c)
  | [] => ([], c)

/-- Whether a mark between documents stands here: three hyphens or three dots at the start of a
line. -/
def atDocumentMark (c : Cursor) : Bool :=
  c.column = 0 && (c.looksAt ['-', '-', '-'] || c.looksAt ['.', '.', '.'])
    && atBlankOrEnd (c.rest.drop 3)

end Cursor

/-- What stands between two runs of characters of a scalar: blanks on one line, or the ends of one
or more lines. -/
structure Gap where
  blanks : List Char
  /-- Whether a line ends here, be it an escaped end. -/
  broken : Bool
  /-- The end of the first line that counts. -/
  first : List Char
  /-- The ends of the lines after it. -/
  others : List Char
deriving Repr

namespace Gap

def none : Gap := ⟨[], false, [], []⟩

/-- The gap that begins with an escaped end of a line, which does not count. -/
def escaped : Gap := ⟨[], true, [], []⟩

/-- What a gap counts for: blanks for themselves, one end of a line for a space, and more of them
for all but the first. -/
def text (g : Gap) : List Char :=
  if !g.broken then g.blanks
  else if g.first = ['\n'] then (if g.others.isEmpty then [' '] else g.others)
  else g.first ++ g.others

/-- The gap with one more blank; blanks at the start of a line do not count. -/
def addBlank (g : Gap) (b : Char) : Gap :=
  if g.broken then g else { g with blanks := g.blanks ++ [b] }

/-- The gap with one more end of a line; the first one is kept apart. -/
def addBreak (g : Gap) (b : List Char) : Gap :=
  if g.broken then { g with others := g.others ++ b } else ⟨[], true, b, []⟩

/-- The gap from a cursor on, and the place behind it. A tab before the column `indent` of a new
line is refused. -/
def read? (indent : Nat) : Nat → Gap → Cursor → Option (Gap × Cursor)
  | 0, g, c => some (g, c)
  | fuel + 1, g, c =>
    match c.peek? with
    | some b =>
      if isBlank b then
        if g.broken && b = '\t' && c.column < indent then Option.none
        else read? indent fuel (g.addBlank b) (c.skip 1)
      else if isBreak b then
        let (b, c) := c.lineBreak
        read? indent fuel (g.addBreak b) c
      else some (g, c)
    | _ => some (g, c)

end Gap

/-! ### Plain scalars -/

/-- A character that ends a plain scalar inside brackets. -/
def isFlowMark (c : Char) : Bool := c = ',' || c = '[' || c = ']' || c = '{' || c = '}'

/-- The run of characters of a plain scalar here, up to a blank, the end of a line or a mark; a
colon that is glued to a mark is refused. -/
def plainRun? (inFlow : Bool) : List Char → Option (List Char)
  | [] => some []
  | c :: cs =>
    if isBlank c || isBreak c then some []
    else if inFlow && c = ':' && cs.head?.any (fun d => isFlowMark d || d = '?') then none
    else if c = ':' && atBlankOrEnd cs then some []
    else if inFlow && isFlowMark c then some []
    else (plainRun? inFlow cs).map (c :: ·)

/-- A plain scalar, read so far up to a gap: its text, whether a line has ended behind it, and the
place behind it. Outside brackets it goes on only in the column `indent` or further right. -/
def plain? (inFlow : Bool) (indent : Nat) :
    Nat → Gap → List Char → Cursor → Option (List Char × Bool × Cursor)
  | 0, _, _, _ => none
  | fuel + 1, g, text, c =>
    if c.atDocumentMark || c.peek? = some '#' then some (text, g.broken, c)
    else do
      let run ← plainRun? inFlow c.rest
      if run.isEmpty then some (text, g.broken, c)
      else
        let text := text ++ g.text ++ run
        let c := c.skip run.length
        let (g, c) ← Gap.read? indent (c.rest.length + 1) .none c
        if g.blanks.isEmpty && !g.broken then some (text, false, c)
        else if !inFlow && c.column < indent then some (text, g.broken, c)
        else plain? inFlow indent fuel g text c

/-! ### Quoted scalars -/

/-- The character of a one-letter escape. -/
def letterEscape? (c : Char) : Option Char :=
  ([('0', '\x00'), ('a', '\x07'), ('b', '\x08'), ('t', '\t'), ('\t', '\t'), ('n', '\n'),
    ('v', '\x0b'), ('f', '\x0c'), ('r', '\r'), ('e', '\x1b'), (' ', ' '), ('"', '"'), ('/', '/'),
    ('\\', '\\'), ('N', '\u0085'), ('_', '\u00a0'), ('L', '\u2028'),
    ('P', '\u2029')].find? fun e => e.1 = c).map Prod.snd

/-- How many hexadecimal digits follow the letter of an escape. -/
def escapeDigits? (c : Char) : Option Nat :=
  if c = 'x' then some 2 else if c = 'u' then some 4 else if c = 'U' then some 8 else none

/-- The character of an escape after its backslash, and how many characters it takes. -/
def escape? : List Char → Option (Char × Nat)
  | [] => none
  | c :: cs =>
    match escapeDigits? c with
    | some n => do
      let ds := cs.take n
      if ds.length < n then none
      else
        let value ← Text.numeral? 16 ds
        if h : value.isValidChar then some (Char.ofNatAux value h, n + 1) else none
    | none => (letterEscape? c).map fun e => (e, 1)

/-- The run of characters of a quoted scalar here, up to a blank, the end of a line, the closing
quote or an escaped end of a line: the text, and how many characters it takes. -/
def quotedRun? (double : Bool) : Nat → List Char → Option (List Char × Nat)
  | 0, _ => none
  | _, [] => some ([], 0)
  | fuel + 1, c :: cs =>
    if isBlank c || isBreak c then some ([], 0)
    else if !double && c = '\'' then
      match cs with
      | '\'' :: rest => (quotedRun? double fuel rest).map fun (text, n) => ('\'' :: text, n + 2)
      | _ => some ([], 0)
    else if double && c = '"' then some ([], 0)
    else if double && c = '\\' then
      if cs.head?.any isBreak then some ([], 0)
      else do
        let (e, taken) ← escape? cs
        let (text, n) ← quotedRun? double fuel (cs.drop taken)
        return (e :: text, n + taken + 1)
    else (quotedRun? double fuel cs).map fun (text, n) => (c :: text, n + 1)

/-- A quoted scalar, read so far: its text and the place behind the closing quote. -/
def quoted? (double : Bool) : Nat → List Char → Cursor → Option (List Char × Cursor)
  | 0, _, _ => none
  | fuel + 1, text, c =>
    if c.atDocumentMark then none
    else do
      let (run, taken) ← quotedRun? double (c.rest.length + 1) c.rest
      let text := text ++ run
      let c := c.skip taken
      match c.peek? with
      | none => none
      | some q =>
        if q = (if double then '"' else '\'') then some (text, c.skip 1)
        else
          let (start, c) := if q = '\\' then (Gap.escaped, (c.skip 1).lineBreak.2) else (Gap.none, c)
          let (g, c) ← Gap.read? 0 (c.rest.length + 1) start c
          quoted? double fuel (text ++ g.text) c

/-! ### Block scalars -/

/-- What is to happen to the ends of lines at the end of a block scalar. -/
inductive Chomping
  | clip
  | strip
  | keep
deriving DecidableEq, Repr

/-- The header of a block scalar after its first character: the chomping, the further indentation
if it is given, and the place behind. -/
def blockHeader? (c : Cursor) : Option (Chomping × Option Nat × Cursor) :=
  let chomping? (b : Char) : Option Chomping :=
    if b = '+' then some .keep else if b = '-' then some .strip else none
  let digit? (b : Char) : Option Nat := if b = '0' then none else Text.digit? 10 b
  match c.rest with
  | a :: b :: _ =>
    match chomping? a, digit? a with
    | some chomping, _ =>
      if Text.isDecimal b then (digit? b).map fun n => (chomping, some n, c.skip 2)
      else some (chomping, none, c.skip 1)
    | none, some n =>
      match chomping? b with
      | some chomping => some (chomping, some n, c.skip 2)
      | none => some (.clip, some n, c.skip 1)
    | none, none => if a = '0' then none else some (.clip, none, c)
  | [a] =>
    match chomping? a, digit? a with
    | some chomping, _ => some (chomping, none, c.skip 1)
    | none, some n => some (.clip, some n, c.skip 1)
    | none, none => if a = '0' then none else some (.clip, none, c)
  | [] => some (.clip, none, c)

/-- The empty lines here: the ends of them, the greatest column that their blanks reach and the
place behind. Blanks count as indentation up to the column `indent`, or all of them where it is not
known yet; a tab among them is refused. -/
def emptyLines? (indent : Option Nat) :
    Nat → Nat → List Char → Cursor → Option (List Char × Nat × Cursor)
  | 0, widest, ends, c => some (ends, widest, c)
  | fuel + 1, widest, ends, c =>
    let blanks := (c.rest.takeWhile (· = ' ')).length
    let c := c.skip (match indent with
      | none => blanks
      | some n => min blanks (n - c.column))
    let widest := max widest c.column
    let inside := indent.all (c.column < ·)
    match c.peek? with
    | some b =>
      if inside && b = '\t' then none
      else if isBreak b then
        let (b, c) := c.lineBreak
        emptyLines? indent fuel widest (ends ++ b) c
      else some (ends, widest, c)
    | none => some (ends, widest, c)

/-- What a block scalar carries from line to line: its text, the end of the last line, the ends of
the empty lines after it, and whether the last line began with a blank. -/
structure Block where
  text : List Char
  lastEnd : List Char
  emptyEnds : List Char
  led : Bool

/-- The lines of a block scalar in the column `indent`. Where the scalar is folded, the end of a
line between two lines that do not begin with a blank counts as a space, or for nothing before empty
lines. -/
def blockLines? (folded : Bool) (indent : Nat) : Nat → Block → Cursor → Option (Block × Cursor)
  | 0, b, c => some (b, c)
  | fuel + 1, b, c =>
    if c.column ≠ indent || c.rest.isEmpty then some (b, c)
    else do
      let led := c.peek?.any isBlank
      let joint :=
        if folded && b.lastEnd.head? = some '\n' && !b.led && !led then
          if b.emptyEnds.isEmpty then [' '] else []
        else b.lastEnd
      let line := c.rest.takeWhile fun d => !isBreak d
      let (lastEnd, c) := (c.skip line.length).lineBreak
      let (ends, _, c) ← emptyLines? (some indent) (c.rest.length + 1) 0 [] c
      blockLines? folded indent fuel ⟨b.text ++ joint ++ b.emptyEnds ++ line, lastEnd, ends, led⟩ c

/-- A block scalar after its first character, inside a collection of the given indentation: its
text and the place behind. -/
def block? (folded : Bool) (outer : Int) (c : Cursor) : Option (List Char × Cursor) := do
  let (chomping, further, c) ← blockHeader? c
  let c := c.skipWhile isBlank
  let c := if c.peek? = some '#' then c.skipWhile fun d => !isBreak d else c
  if !atLineEnd c.rest then none
  else
    let c := c.lineBreak.2
    let given := further.map fun n => if 0 ≤ outer then outer.toNat + n else n
    let (ends, widest, c) ← emptyLines? given (c.rest.length + 1) 0 [] c
    let indent := given.getD (max (max widest (outer + 1).toNat) 1)
    let (b, c) ← blockLines? folded indent (c.rest.length + 1) ⟨[], [], ends, false⟩ c
    return (match chomping with
      | .strip => b.text
      | .clip => b.text ++ b.lastEnd
      | .keep => b.text ++ b.lastEnd ++ b.emptyEnds, c)

end SpanRelay.Yaml
