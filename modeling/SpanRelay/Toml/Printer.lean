import SpanRelay.Text.Digits
import SpanRelay.Toml.Text

/-! # Writing texts in the format with tables

`textOf` writes a text in the first of these ways that holds it: on one line with escapes but without
need of them, on one line as it is, on several lines with escapes but without need of them, on several
lines as it is, and at last with escapes. -/

namespace SpanRelay.Toml

/-- A character that stands in no text as it is. -/
def isControl (c : Char) : Bool := c ≠ '\t' && c ≠ '\n' && (c.toNat < 0x20 || c.toNat = 0x7F)

/-- The length of the longest run of a character; `run` is how many stand in front. -/
def longestRun (q : Char) : Nat → List Char → Nat
  | run, [] => run
  | run, c :: cs => if c = q then longestRun q (run + 1) cs else max run (longestRun q 0 cs)

/-- The letters of the escapes that have one; a quote is not among them. -/
def escapeLetters : List (Char × Char) :=
  [('\x08', 'b'), ('\t', 't'), ('\n', 'n'), ('\x0c', 'f'), ('\r', 'r'), ('\\', '\\')]

/-- A character that is no quote, in a text with escapes. -/
def escape (manyLines : Bool) (c : Char) : List Char :=
  if manyLines && c = '\n' then ['\n']
  else
    match escapeLetters.find? fun e => e.1 = c with
    | some (_, letter) => ['\\', letter]
    | none =>
      if isControl c then '\\' :: 'u' :: Text.filled 4 ((Text.hexDigits c.toNat).map Char.toUpper)
      else [c]

/-- A text with escapes, after `run` quotes that stand as they are. On several lines two quotes may
follow each other, on one line a quote has its escape. -/
def escapedFrom (manyLines : Bool) : Nat → List Char → List Char
  | _, [] => []
  | run, c :: cs =>
    if c = '"' then
      if run < (if manyLines then 2 else 0) then c :: escapedFrom manyLines (run + 1) cs
      else '\\' :: '"' :: escapedFrom manyLines 0 cs
    else escape manyLines c ++ escapedFrom manyLines 0 cs

/-- A text between the given quotes, on a line of its own if it has several. -/
def between (quotes : List Char) (cs inside : List Char) : List Char :=
  let start := if quotes.length = 3 && cs.contains '\n' then ['\n'] else []
  quotes ++ start ++ inside ++ quotes

/-- A text with its quotes. -/
def textOf (cs : List Char) : List Char :=
  let control := cs.any isControl
  let backslash := cs.contains '\\'
  let newline := cs.contains '\n'
  let doubles := longestRun '"' 0 cs
  let singles := longestRun '\'' 0 cs
  let basic (manyLines : Bool) : List Char :=
    between (List.replicate (if manyLines then 3 else 1) '"') cs (escapedFrom manyLines 0 cs)
  let literal (manyLines : Bool) : List Char :=
    between (List.replicate (if manyLines then 3 else 1) '\'') cs cs
  if !control && !backslash && doubles = 0 && !newline then basic false
  else if !control && singles = 0 && !newline then literal false
  else if !control && !backslash && doubles ≤ 2 then basic true
  else if !control && singles ≤ 2 then literal true
  else basic newline

end SpanRelay.Toml
