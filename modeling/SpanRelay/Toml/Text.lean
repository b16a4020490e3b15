import SpanRelay.Text.Digits

/-! # Texts of the settings format with tables

The four ways to write a text, read from the characters behind the opening quotes: with escapes or
without, on one line or on several. -/

namespace SpanRelay.Toml

open SpanRelay.Text

/-- A space or a tab. -/
def isBlank (c : Char) : Bool := c = ' ' || c = '\t'

/-- A character that may stand in a comment or in a text as it is. -/
def isPlain (c : Char) : Bool := c = '\t' || (0x20 ≤ c.toNat && c.toNat ≠ 0x7F)

/-- What follows the end of a line, if there is one here. -/
def newline? : List Char → Option (List Char)
  | '\n' :: cs => some cs
  | '\r' :: '\n' :: cs => some cs
  | _ => none

/-- What follows the end of a line here, or all if there is none. -/
def dropNewline (cs : List Char) : List Char := (newline? cs).getD cs

/-- The character of a one-letter escape. -/
def letterEscape? (c : Char) : Option Char :=
  ([('b', '\x08'), ('f', '\x0c'), ('n', '\n'), ('r', '\r'), ('t', '\t'), ('"', '"'),
    ('\\', '\\')].find? fun e => e.1 = c).map Prod.snd

/-- The character with the code point that `n` hexadecimal digits give. -/
def codePoint? (n : Nat) (cs : List Char) : Option (Char × List Char) := do
  let ds := cs.take n
  if ds.length < n then none
  else
    let value ← numeral? 16 ds
    if h : value.isValidChar then some (Char.ofNatAux value h, cs.drop n) else none

/-- The character of an escape after its backslash, and what follows. -/
def escape? : List Char → Option (Char × List Char)
  | 'u' :: cs => codePoint? 4 cs
  | 'U' :: cs => codePoint? 8 cs
  | c :: cs => (letterEscape? c).map fun e => (e, cs)
  | [] => none

/-- A text with escapes, up to its closing quote, and what follows. -/
def basic? : Nat → List Char → Option (List Char × List Char)
  | 0, _ | _, [] => none
  | fuel + 1, c :: cs =>
    if c = '"' then some ([], cs)
    else if c = '\\' then do
      let (e, rest) ← escape? cs
      let (text, rest) ← basic? fuel rest
      return (e :: text, rest)
    else if isPlain c then (basic? fuel cs).map fun (text, rest) => (c :: text, rest)
    else none

/-- A text without escapes, up to its closing quote, and what follows. -/
def literal? : List Char → Option (List Char × List Char)
  | [] => none
  | c :: cs =>
    if c = '\'' then some ([], cs)
    else if isPlain c then (literal? cs).map fun (text, rest) => (c :: text, rest)
    else none

/-- How many quotes stand here. -/
def quotes (q : Char) (cs : List Char) : Nat := (cs.takeWhile (· = q)).length

/-- The quotes that belong to a text whose closing quotes stand here, and what follows: the last
three of five at most close it. -/
def closing? (q : Char) (cs : List Char) : Option (List Char × List Char) :=
  let n := quotes q cs
  if n < 3 then none else some (List.replicate (min n 5 - 3) q, cs.drop (min n 5))

/-- The blanks and ends of lines behind a backslash at the end of a line: the line has to end, and
what is blank after it does not count. -/
def continuation? (cs : List Char) : Option (List Char) := do
  let rest ← newline? (cs.dropWhile isBlank)
  return rest.dropWhile fun c => isBlank c || c = '\n' || c = '\r'

/-- A text of several lines, up to its closing quotes, and what follows. -/
def multiline? (q : Char) : Nat → List Char → Option (List Char × List Char)
  | 0, _ | _, [] => none
  | fuel + 1, c :: cs =>
    if c = q then
      match closing? q (c :: cs) with
      | some found => some found
      | none => (multiline? q fuel cs).map fun (text, rest) => (c :: text, rest)
    else if q = '"' && c = '\\' then
      match continuation? cs with
      | some rest => multiline? q fuel rest
      | none => do
        let (e, rest) ← escape? cs
        let (text, rest) ← multiline? q fuel rest
        return (e :: text, rest)
    else
      match newline? (c :: cs) with
      | some rest => (multiline? q fuel rest).map fun (text, rest) => ('\n' :: text, rest)
      | none =>
        if isPlain c then (multiline? q fuel cs).map fun (text, rest) => (c :: text, rest)
        else none

/-- A text on one line with its quotes, and what follows. -/
def line? : List Char → Option (List Char × List Char)
  | '"' :: cs => basic? (cs.length + 1) cs
  | '\'' :: cs => literal? cs
  | _ => none

/-- A text with its quotes, and what follows. The end of a line right behind three opening quotes
does not count. -/
def text? (cs : List Char) : Option (List Char × List Char) :=
  let many (q : Char) (cs : List Char) := multiline? q (cs.length + 1) (dropNewline cs)
  match cs with
  | '"' :: '"' :: '"' :: cs => many '"' cs
  | '\'' :: '\'' :: '\'' :: cs => many '\'' cs
  | cs => line? cs

end SpanRelay.Toml
