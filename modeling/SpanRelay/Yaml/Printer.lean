import SpanRelay.Text.Digits
import SpanRelay.Yaml.Character
import SpanRelay.Yaml.Scalar

/-! # Writing texts in the indented format

`scalarOf` writes a text so that readers take it for that text: plain where nothing in it means
something else, in single quotes where that helps, line by line if it has several lines, and with
escapes in double quotes where nothing else will do. -/

namespace SpanRelay.Yaml

/-! ### What a text has in it -/

/-- Characters that mean something at the start of a scalar. -/
def startMarks : List Char :=
  ['#', ',', '[', ']', '{', '}', '&', '*', '!', '|', '>', '\'', '"', '%', '@', '\x60']

/-- Whether a text begins like something else than a plain scalar. -/
def startsMarked (cs : List Char) : Bool :=
  match cs with
  | [] => false
  | c :: rest =>
    startMarks.contains c || ((c = '?' || c = ':' || c = '-') && atBlankOrEnd rest)
      || ['-', '-', '-'].isPrefixOf cs || ['.', '.', '.'].isPrefixOf cs

/-- Whether a text has the end of a key or the start of a comment behind its first character. -/
def hasMarkInside : List Char → Bool
  | [] | [_] => false
  | c :: d :: rest =>
    (d = ':' && atBlankOrEnd rest) || (d = '#' && (isBlank c || isBreak c))
      || hasMarkInside (d :: rest)

/-- Whether two characters of the given kinds follow each other. -/
def hasPair (first second : Char → Bool) : List Char → Bool
  | [] | [_] => false
  | c :: d :: rest => (first c && second d) || hasPair first second (d :: rest)

def isSpace (c : Char) : Bool := c = ' '

/-- Whether a text begins or ends with a space or the end of a line. -/
def hasLooseEdge (cs : List Char) : Bool :=
  let loose (c : Char) : Bool := isSpace c || isBreak c
  cs.head?.any loose || cs.getLast?.any loose

/-- Whether a text needs escapes: for a character that is not printable, or for a space at the end of
a line. -/
def needsEscape (cs : List Char) : Bool :=
  !cs.all isPrintable || hasPair isSpace isBreak cs

/-- Whether a text may stand without quotes. -/
def allowsPlain (cs : List Char) : Bool :=
  !needsEscape cs && !hasLooseEdge cs && !cs.any isBreak && !startsMarked cs && !hasMarkInside cs

/-- Whether a text may stand in single quotes: its lines do not begin with a space. -/
def allowsSingle (cs : List Char) : Bool := !needsEscape cs && !hasPair isBreak isSpace cs

/-- Whether a text may stand line by line. -/
def allowsLines (cs : List Char) : Bool := !needsEscape cs && !cs.getLast?.any isSpace

/-! ### The ways to write a text -/

def margin (indent : Nat) : List Char := List.replicate indent ' '

/-- The text with every line that is not empty indented; `atStart` tells whether a line begins. -/
def indentLines (indent : Nat) : Bool → List Char → List Char
  | _, [] => []
  | atStart, c :: cs =>
    if isBreak c then c :: indentLines indent true cs
    else (if atStart then margin indent else []) ++ c :: indentLines indent false cs

/-- A text in single quotes, a quote in it written twice. -/
def single (indent : Nat) (cs : List Char) : List Char :=
  let doubled := cs.flatMap fun c => if c = '\'' then ['\'', '\''] else [c]
  '\'' :: (indentLines indent false doubled
    ++ (if cs.getLast?.any isBreak then margin indent else []) ++ ['\''])

/-- The letters of the escapes that have one. -/
def escapeLetters : List (Char × Char) :=
  [('\x00', '0'), ('\x07', 'a'), ('\x08', 'b'), ('\t', 't'), ('\n', 'n'), ('\x0b', 'v'),
    ('\x0c', 'f'), ('\r', 'r'), ('\x1b', 'e'), ('"', '"'), ('\\', '\\'), ('\u0085', 'N'),
    ('\u2028', 'L'), ('\u2029', 'P')]

/-- The number of a character in `width` hexadecimal digits, in capital letters. -/
def hexEscape (width n : Nat) : List Char :=
  Text.filled width ((Text.hexDigits n).map Char.toUpper)

/-- A character as it stands in double quotes. -/
def escape (c : Char) : List Char :=
  match escapeLetters.find? fun e => e.1 = c with
  | some (_, letter) => ['\\', letter]
  | none =>
    if isPrintable c then [c]
    else if c.toNat ≤ 0xFF then '\\' :: 'x' :: hexEscape 2 c.toNat
    else if c.toNat ≤ 0xFFFF then '\\' :: 'u' :: hexEscape 4 c.toNat
    else '\\' :: 'U' :: hexEscape 8 c.toNat

/-- A text in double quotes, on one line. -/
def double (cs : List Char) : List Char := '"' :: (cs.flatMap escape ++ ['"'])

/-- The mark for how many spaces are the indentation, which the first line does not show if it is
empty or begins with a space. -/
def indentMark (cs : List Char) : List Char :=
  if cs.head?.any fun c => isSpace c || isBreak c then ['2'] else []

/-- The mark for the ends of lines at the end of a text: a minus sign for none of them, a plus sign
for several or for nothing else. -/
def endMark (cs : List Char) : List Char :=
  match cs.reverse with
  | [] => ['-']
  | [c] => if isBreak c then ['+'] else ['-']
  | c :: d :: _ => if !isBreak c then ['-'] else if isBreak d then ['+'] else []

/-- A text line by line. -/
def lines (indent : Nat) (cs : List Char) : List Char :=
  '|' :: (indentMark cs ++ endMark cs ++ '\n' :: indentLines indent true cs)

/-- A text in the way that suits it; its lines go `indent` deep. -/
def scalarOf (indent : Nat) (cs : List Char) : List Char :=
  let inQuotes := if allowsSingle cs then single indent cs else double cs
  if cs.contains '\n' then (if allowsLines cs then lines indent cs else double cs)
  else if readsAsText cs && allowsPlain cs then cs
  else inQuotes

/-- The end of the line of an entry, if the entry has not ended one. -/
def endLine (cs : List Char) : List Char :=
  if cs.getLast?.any isBreak then cs else cs ++ ['\n']

/-- An entry of a mapping that is `indent` deep. -/
def entry (indent : Nat) (name : String) (value : List Char) : List Char :=
  endLine (margin indent ++ name.toList ++ ':' :: ' ' :: value)

end SpanRelay.Yaml
