import SpanRelay.Text.Digits
import SpanRelay.Word

/-! # Reading decimals

Two ways from digits to a floating point number. `nearest` rounds the exact decimal to the nearest
number; `number?` reads a whole text that way, words for the infinities and for no number included.
`scaled?` makes do with one rounding of the digits that fit 64 bits and one multiplication or
division by a power of ten, as exchanged records are read. -/

namespace SpanRelay.Decimal

open Text

/-- The number nearest to `significand * 10 ^ exponent`. Exponents far out of range are settled
without computing the power. -/
def nearest (significand : Nat) (exponent : Int) : Float :=
  let order := exponent + (digits significand).length
  if significand = 0 ∨ order < -340 then 0.0
  else if 400 < order then 1.0 / 0.0
  else if exponent < 0 then Float.ofScientific significand true exponent.natAbs
  else Float.ofScientific significand false exponent.natAbs

/-- The parts of a decimal text: whole digits, fraction digits, exponent. -/
structure Numeral where
  whole : List Char
  fraction : List Char
  exponent : Int
deriving Repr

/-- The value of a numeral, rounded once. -/
def Numeral.nearest (n : Numeral) : Float :=
  Decimal.nearest (ofDigits 10 (n.whole ++ n.fraction)) (n.exponent - n.fraction.length)

/-- A sign at the start of a text, and what follows it. -/
def takeSign : List Char → Bool × List Char
  | '-' :: cs => (true, cs)
  | '+' :: cs => (false, cs)
  | cs => (false, cs)

/-- An exponent part: `e` or `E`, an optional sign and at least one digit. No exponent part counts
as zero. -/
def exponent? : List Char → Option (Int × List Char)
  | c :: cs =>
    if c = 'e' ∨ c = 'E' then
      let (negative, rest) := takeSign cs
      let (ds, rest) := spanDecimal rest
      if ds.isEmpty then none
      else
        let n : Int := ofDigits 10 ds
        some (if negative then -n else n, rest)
    else some (0, c :: cs)
  | [] => some (0, [])

/-- A fraction part: a point and digits, perhaps none. -/
def fraction : List Char → List Char × List Char
  | '.' :: cs => spanDecimal cs
  | cs => ([], cs)

/-- An unsigned numeral that takes up the whole text, with at least one digit before or after the
point. -/
def unsigned? (cs : List Char) : Option Float := do
  let (whole, rest) := spanDecimal cs
  let (frac, rest) := fraction rest
  if whole.isEmpty && frac.isEmpty then none
  else
    let (e, rest) ← exponent? rest
    if rest.isEmpty then some (Numeral.nearest ⟨whole, frac, e⟩) else none

/-- A text with its ASCII letters made small. -/
def lowered (cs : List Char) : String := String.ofList (cs.map Char.toLower)

/-- The floating point number a text spells: a numeral, `inf`, `infinity` or `nan` in any case,
each with an optional sign. -/
def number? (cs : List Char) : Option Float := do
  let (negative, rest) := takeSign cs
  let word := lowered rest
  let x ←
    if word = "inf" ∨ word = "infinity" then some (1.0 / 0.0)
    else if word = "nan" then some (0.0 / 0.0)
    else unsigned? rest
  return if negative then -x else x

/-! ### Scaled reading -/

/-- The greatest number of 64 bits. -/
def maxWord : Nat := Word.range 64 - 1

/-- The digits that fit 64 bits, read so far: `significand * 10 ^ exponent`. -/
structure Partial where
  significand : Nat
  exponent : Int
deriving DecidableEq, Repr

/-- One whole digit: it is taken up while the significand fits, and from the first that does not
every digit only shifts. -/
def Partial.addWhole (p : Partial) (c : Char) : Partial :=
  let n := p.significand * 10 + (digit? 10 c).getD 0
  if p.exponent = 0 ∧ n ≤ maxWord then ⟨n, 0⟩ else ⟨p.significand, p.exponent + 1⟩

/-- The fraction digits: they are taken up until one does not fit, and the others are dropped. -/
def Partial.addFraction (p : Partial) : List Char → Partial
  | [] => p
  | c :: cs =>
    let n := p.significand * 10 + (digit? 10 c).getD 0
    if n ≤ maxWord then Partial.addFraction ⟨n, p.exponent - 1⟩ cs else p

/-- The power of ten nearest to `10 ^ n`, for `n` at most 308. -/
def power (n : Nat) : Float := Float.ofScientific 1 false n

/-- The digits times a power of ten; `none` if that leaves the finite numbers. -/
def Partial.float? (p : Partial) (exponent : Int) : Option Float :=
  let e := p.exponent + exponent
  let f := p.significand.toUInt64.toFloat
  if 0 ≤ e then
    if f == 0.0 then some f
    else if 308 < e then none
    else
      let x := f * power e.natAbs
      if x.isInf then none else some x
  else if -308 ≤ e then some (f / power e.natAbs)
  else if -616 ≤ e then some (f / power 308 / power (e + 308).natAbs)
  else some 0.0

/-- The value of a numeral in scaled reading, with its sign; `none` if it is out of range. -/
def Numeral.scaled? (n : Numeral) (negative : Bool) : Option Float := do
  let p := (n.whole.foldl Partial.addWhole ⟨0, 0⟩).addFraction n.fraction
  let x ← p.float? n.exponent
  return if negative then -x else x

end SpanRelay.Decimal
