import SpanRelay.Decimal.Reader
import SpanRelay.Json.Basic
import SpanRelay.Timestamp.Basic
import SpanRelay.Toml.Text

/-! # Scalars of the settings format with tables

Truth values, numbers and points in time, each read from the front of a text. -/

namespace SpanRelay.Toml

open SpanRelay.Text

/-- A nonempty run of digits of a radix, single underscores allowed between digits, and what
follows. -/
def digitRun? (radix : Nat) (cs : List Char) : Option (List Char × List Char) :=
  let isDigit (c : Char) : Bool := (digit? radix c).isSome
  let run := cs.takeWhile fun c => isDigit c || c = '_'
  let rest := cs.drop run.length
  let parts := run.splitOn '_'
  if run.isEmpty || parts.any List.isEmpty then none else some (parts.flatten, rest)

/-- A decimal numeral without a zero before other digits, and what follows. -/
def decimalRun? (cs : List Char) : Option (List Char × List Char) := do
  let (ds, rest) ← digitRun? 10 cs
  if ds.head? = some '0' && 1 < ds.length then none else some (ds, rest)

/-- One more than the greatest whole number. -/
def wholeRange : Nat := Word.range 63

/-- A whole number in a radix, if it is in range, and what follows. -/
def radix? (radix : Nat) (cs : List Char) : Option (Json × List Char) := do
  let (ds, rest) ← digitRun? radix cs
  let n := ofDigits radix ds
  if n < wholeRange then some (.int n, rest) else none

/-- An exponent part, digits and all, and what follows. -/
def exponentPart? : List Char → Option (Int × List Char)
  | c :: cs =>
    if c = 'e' || c = 'E' then do
      let (negative, cs) := Decimal.takeSign cs
      let (ds, rest) ← digitRun? 10 cs
      let n : Int := ofDigits 10 ds
      return (if negative then -n else n, rest)
    else none
  | [] => none

/-- The fraction and the exponent of a number, where there is at least one of them, and what
follows. -/
def decimals? : List Char → Option (List Char × Int × List Char)
  | '.' :: cs => do
    let (fraction, rest) ← digitRun? 10 cs
    match exponentPart? rest with
    | some (e, rest) => return (fraction, e, rest)
    | none => if rest.head?.any fun c => c = 'e' || c = 'E' then none else return (fraction, 0, rest)
  | cs => do
    let (e, rest) ← exponentPart? cs
    return ([], e, rest)

/-- A decimal number after its sign, and what follows: a floating point number if it has a fraction
or an exponent, which has to be finite, else a whole number in range. -/
def decimal? (negative : Bool) (cs : List Char) : Option (Json × List Char) := do
  let (ds, rest) ← decimalRun? cs
  match decimals? rest with
  | some (fraction, e, rest) =>
    let x := Decimal.Numeral.nearest ⟨ds, fraction, e⟩
    if x.isFinite then some (.real (if negative then -x else x), rest) else none
  | none =>
    let n := ofDigits 10 ds
    if negative then (if n ≤ wholeRange then some (.int (-n), rest) else none)
    else if n < wholeRange then some (.int n, rest)
    else none

/-- What follows a word, if it stands here. -/
def word? (word : String) (cs : List Char) : Option (List Char) :=
  if word.toList.isPrefixOf cs then some (cs.drop word.length) else none

/-- A number after its sign, words for what is not finite included, and what follows. -/
def signed? (negative : Bool) (cs : List Char) : Option (Json × List Char) :=
  let sign (x : Float) : Json := .real (if negative then -x else x)
  match word? "inf" cs, word? "nan" cs with
  | some rest, _ => some (sign (1.0 / 0.0), rest)
  | none, some rest => some (sign (0.0 / 0.0), rest)
  | none, none => decimal? negative cs

/-- A number, and what follows. -/
def number? : List Char → Option (Json × List Char)
  | '0' :: 'x' :: cs => radix? 16 cs
  | '0' :: 'o' :: cs => radix? 8 cs
  | '0' :: 'b' :: cs => radix? 2 cs
  | '-' :: cs => signed? true cs
  | '+' :: cs => signed? false cs
  | cs => signed? false cs

/-! ### Points in time -/

/-- A number of exactly `width` digits within bounds, and what follows. -/
def fixed? (width low high : Nat) (cs : List Char) : Option (Nat × List Char) := do
  let ds := cs.take width
  if ds.length < width then none
  else
    let n ← numeral? 10 ds
    if low ≤ n && n ≤ high then some (n, cs.drop width) else none

/-- What follows the character `c`. -/
def mark? (c : Char) : List Char → Option (List Char)
  | d :: cs => if d = c then some cs else none
  | [] => none

/-- What follows a date. -/
def date? (cs : List Char) : Option (List Char) := do
  let (year, cs) ← fixed? 4 0 9999 cs
  let (month, cs) ← fixed? 2 1 12 (← mark? '-' cs)
  let (_, cs) ← fixed? 2 1 (daysInMonth year month) (← mark? '-' cs)
  return cs

/-- What follows a fraction of a second, or all if there is none. -/
def fraction? : List Char → Option (List Char)
  | '.' :: cs =>
    let (ds, rest) := spanDecimal cs
    if ds.isEmpty then none else some rest
  | cs => some cs

/-- What follows a time of day. A minute may have a leap second. -/
def time? (cs : List Char) : Option (List Char) := do
  let (_, cs) ← fixed? 2 0 23 cs
  let (_, cs) ← fixed? 2 0 59 (← mark? ':' cs)
  let (_, cs) ← fixed? 2 0 60 (← mark? ':' cs)
  fraction? cs

/-- What follows an offset, or all if there is none. -/
def offset? : List Char → Option (List Char)
  | c :: cs =>
    if c = 'Z' || c = 'z' then some cs
    else if c = '+' || c = '-' then do
      let (_, cs) ← fixed? 2 0 23 cs
      let (_, cs) ← fixed? 2 0 59 (← mark? ':' cs)
      return cs
    else some (c :: cs)
  | [] => some []

/-- What follows a time of day with its offset, if the sign of a time stands here. A blank is such a
sign only before a digit. -/
def timePart? : List Char → Option (List Char)
  | c :: cs =>
    if c = 'T' || c = 't' || (c = ' ' && cs.head?.any isDecimal) then do offset? (← time? cs)
    else some (c :: cs)
  | [] => some []

/-- Whether a date stands here, as far as its first hyphen. -/
def looksLikeDate (cs : List Char) : Bool :=
  (cs.take 4).all isDecimal && cs[4]? = some '-'

/-- Whether a time of day stands here, as far as its first colon. -/
def looksLikeTime (cs : List Char) : Bool :=
  (cs.take 2).all isDecimal && cs[2]? = some ':'

/-- A point in time as a value: a record with the text of it, as it is neither a text nor a number. -/
def timeValue (cs : List Char) : Json := .object [("$time", .text (String.ofList cs))]

/-- A point in time, and what follows: a date, a time of day, or both. -/
def moment? (cs : List Char) : Option (Json × List Char) := do
  let rest ←
    if looksLikeDate cs then do timePart? (← date? cs)
    else time? cs
  return (timeValue (cs.take (cs.length - rest.length)), rest)

/-- A scalar that is no text, and what follows. -/
def scalar? (cs : List Char) : Option (Json × List Char) :=
  match word? "true" cs, word? "false" cs with
  | some rest, _ => some (.bool true, rest)
  | none, some rest => some (.bool false, rest)
  | none, none =>
    if looksLikeDate cs || looksLikeTime cs then moment? cs else number? cs

end SpanRelay.Toml
