import SpanRelay.Decimal.Reader
import SpanRelay.Json.Basic

/-! # Reading JSON

`Json.read?` reads a text that holds one value, with blanks around it. The grammar is decided first
and the use of a value second: a number out of range, an unpaired surrogate or a nesting deeper than
`maxDepth` makes the value `unreadable`, and it is up to the reader of the record whether that
matters. -/

namespace SpanRelay.Json

open Text Decimal

/-- The deepest nesting of lists and objects that can be used. -/
def maxDepth : Nat := 127

/-- The four blanks of the format. -/
def isSpace (c : Char) : Bool := c = ' ' || c = '\n' || c = '\t' || c = '\r'

/-- What follows the blanks. -/
def skipSpace (cs : List Char) : List Char := cs.dropWhile isSpace

/-! ### Strings -/

/-- A part of a written string: a character that stands for itself or for an escape of its own, or
a code unit. -/
inductive Piece
  | char (c : Char)
  | unit (n : Nat)

/-- The character of a short escape. -/
def shortEscape? (c : Char) : Option Char :=
  if c = '"' then some '"'
  else if c = '\\' then some '\\'
  else if c = '/' then some '/'
  else if c = 'b' then some '\x08'
  else if c = 'f' then some '\x0c'
  else if c = 'n' then some '\n'
  else if c = 'r' then some '\r'
  else if c = 't' then some '\t'
  else none

/-- The pieces of a string up to its closing quote, and what follows. -/
def pieces? : List Char → Option (List Piece × List Char)
  | [] => none
  | '"' :: cs => some ([], cs)
  | '\\' :: 'u' :: a :: b :: c :: d :: cs => do
    let n ← numeral? 16 [a, b, c, d]
    let (ps, rest) ← pieces? cs
    return (.unit n :: ps, rest)
  | '\\' :: e :: cs => do
    let c ← shortEscape? e
    let (ps, rest) ← pieces? cs
    return (.char c :: ps, rest)
  | c :: cs =>
    if c.toNat < 0x20 then none
    else do
      let (ps, rest) ← pieces? cs
      return (.char c :: ps, rest)

/-- The first of two code units that stand for one character. -/
def isHigh (n : Nat) : Bool := 0xD800 ≤ n && n < 0xDC00

/-- The second of two code units that stand for one character. -/
def isLow (n : Nat) : Bool := 0xDC00 ≤ n && n < 0xE000

/-- The characters of the pieces; `none` if a surrogate lacks its partner. -/
def join? : List Piece → Option (List Char)
  | [] => some []
  | .char c :: ps => (join? ps).map (c :: ·)
  | [.unit n] => if isHigh n || isLow n then none else some [Char.ofNat n]
  | .unit n :: .unit m :: ps =>
    if isHigh n then
      if isLow m then
        (join? ps).map (Char.ofNat (0x10000 + (n - 0xD800) * 0x400 + (m - 0xDC00)) :: ·)
      else none
    else if isLow n then none
    else (join? (.unit m :: ps)).map (Char.ofNat n :: ·)
  | .unit n :: .char c :: ps =>
    if isHigh n || isLow n then none
    else (join? ps).map fun cs => Char.ofNat n :: c :: cs

/-- A string after its opening quote: its text, unless a surrogate lacks its partner. -/
def string? (cs : List Char) : Option (Option String × List Char) := do
  let (ps, rest) ← pieces? cs
  return ((join? ps).map String.ofList, rest)

/-! ### Numbers -/

/-- The value of a numeral without a fraction and an exponent: a whole number if it fits 64 bits,
without a sign or with one; negative zero does not. -/
def whole? (negative : Bool) (ds : List Char) : Option Json :=
  let n := ofDigits 10 ds
  if negative then
    if 0 < n ∧ n ≤ Word.range 63 then some (.int (-n)) else none
  else if n < Word.range 64 then some (.int n)
  else none

/-- A number after its sign: digits without a leading zero, then perhaps a fraction and an
exponent, each with at least one digit. -/
def number? (negative : Bool) (cs : List Char) : Option (Json × List Char) := do
  let (ds, rest) := spanDecimal cs
  if ds.isEmpty || (1 < ds.length && ds.head? == some '0') then none
  else
    let (frac, rest') := fraction rest
    if rest.head? == some '.' && frac.isEmpty then none
    else
      let (e, rest'') ← exponent? rest'
      let plain := rest.length == rest''.length
      match (if plain then whole? negative ds else none) with
      | some v => some (v, rest'')
      | none =>
        match Numeral.scaled? ⟨ds, frac, e⟩ negative with
        | some x => some (.real x, rest'')
        | none => some (.unreadable, rest'')

/-! ### Values -/

/-- What follows a word, if the text starts with it. -/
def word? (word cs : List Char) : Option (List Char) :=
  if word.isPrefixOf cs then some (cs.drop word.length) else none

/-- A list or an object, unless it lies too deep. -/
def nested (depth : Nat) (v : Json) : Json := if depth < maxDepth then v else .unreadable

mutual

/-- A value inside `depth` lists and objects. -/
def value? : Nat → Nat → List Char → Option (Json × List Char)
  | 0, _, _ => none
  | fuel + 1, depth, cs =>
    match skipSpace cs with
    | '"' :: cs => do
      let (s, rest) ← string? cs
      return (s.elim .unreadable .text, rest)
    | '[' :: cs => do
      let (vs, rest) ←
        match skipSpace cs with
        | ']' :: cs => some ([], cs)
        | cs => items? fuel (depth + 1) cs
      return (nested depth (.list vs), rest)
    | '{' :: cs => do
      let (ms, rest) ←
        match skipSpace cs with
        | '}' :: cs => some (some [], cs)
        | cs => members? fuel (depth + 1) cs
      return (nested depth (ms.elim .unreadable .object), rest)
    | '-' :: cs => number? true cs
    | 'n' :: cs => do return (.null, ← word? ['u', 'l', 'l'] cs)
    | 't' :: cs => do return (.bool true, ← word? ['r', 'u', 'e'] cs)
    | 'f' :: cs => do return (.bool false, ← word? ['a', 'l', 's', 'e'] cs)
    | cs => number? false cs

/-- One or more items of a list and the closing bracket. -/
def items? : Nat → Nat → List Char → Option (List Json × List Char)
  | 0, _, _ => none
  | fuel + 1, depth, cs => do
    let (v, rest) ← value? fuel depth cs
    match skipSpace rest with
    | ']' :: rest => return ([v], rest)
    | ',' :: rest => do
      let (vs, rest) ← items? fuel depth rest
      return (v :: vs, rest)
    | _ => none

/-- One or more members of an object and the closing brace; no members if a name cannot be used. -/
def members? : Nat → Nat → List Char → Option (Option (List (String × Json)) × List Char)
  | 0, _, _ => none
  | fuel + 1, depth, cs =>
    match skipSpace cs with
    | '"' :: cs => do
      let (name, rest) ← string? cs
      match skipSpace rest with
      | ':' :: rest => do
        let (v, rest) ← value? fuel depth rest
        match skipSpace rest with
        | '}' :: rest => return (name.map fun name => [(name, v)], rest)
        | ',' :: rest => do
          let (ms, rest) ← members? fuel depth rest
          return (name.bind fun name => ms.map ((name, v) :: ·), rest)
        | _ => none
      | _ => none
    | _ => none

end

/-- The value a text holds, with blanks around it. -/
def read? (cs : List Char) : Option Json := do
  let (v, rest) ← value? (2 * cs.length + 2) 0 cs
  if (skipSpace rest).isEmpty then some v else none

/-- The value a text holds, if every part of it can be used. -/
def parse? (s : String) : Option Json := do
  let v ← read? s.toList
  if v.readable then some v else none

end SpanRelay.Json
