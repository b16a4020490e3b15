import SpanRelay.Decimal.Reader

/-! # What plain scalars mean

A plain scalar of the indented format is a text, but it may be read as a null, a truth value or a
number. `readsAsText` tells the texts that nobody reads as something else. -/

namespace SpanRelay.Yaml

open Text

def isNullWord (cs : List Char) : Bool :=
  ["null", "Null", "NULL", "~"].contains (String.ofList cs)

def isBoolWord (cs : List Char) : Bool :=
  ["true", "True", "TRUE", "false", "False", "FALSE"].contains (String.ofList cs)

/-- Words that older readers take for a truth value. -/
def isOldBoolWord (cs : List Char) : Bool :=
  ["y", "Y", "yes", "Yes", "YES", "n", "N", "no", "No", "NO", "on", "On", "ON", "off", "Off",
    "OFF"].contains (String.ofList cs)

/-- What follows a plus sign, or the whole text if there is none. -/
def dropPlus : List Char → List Char
  | '+' :: cs => cs
  | cs => cs

def startsWithSign : List Char → Bool
  | '+' :: _ | '-' :: _ => true
  | _ => false

/-- Digits with a zero before them, perhaps after a sign, which are no number. -/
def isZeroFilled (cs : List Char) : Bool :=
  let ds := if startsWithSign cs then cs.tail else cs
  match ds with
  | '0' :: d :: rest => (d :: rest).all isDecimal
  | _ => false

/-- The value of a numeral without a sign, in the radix that its start tells. -/
def magnitude? : List Char → Option Nat
  | '0' :: 'x' :: cs => numeral? 16 cs
  | '0' :: 'o' :: cs => numeral? 8 cs
  | '0' :: 'b' :: cs => numeral? 2 cs
  | cs => if isZeroFilled cs then none else numeral? 10 cs

/-- The whole number below a bound that a plain scalar is read as. -/
def nat? (bound : Nat) (cs : List Char) : Option Nat :=
  (magnitude? (dropPlus cs)).filter (· < bound)

/-- Whether a plain scalar is read as a whole number, of 128 bits at most. -/
def isWhole (cs : List Char) : Bool :=
  match cs with
  | '-' :: cs => ((magnitude? cs).filter (· ≤ Word.range 127)).isSome
  | cs => (nat? (Word.range 128) cs).isSome

/-- The finite number that a plain scalar spells. -/
def finite? (cs : List Char) : Option Float :=
  let rest := dropPlus cs
  if rest.length < cs.length && startsWithSign rest then none
  else (Decimal.number? rest).filter Float.isFinite

/-- The floating point number that a plain scalar is read as. -/
def real? (cs : List Char) : Option Float :=
  let word := String.ofList cs
  if [".inf", ".Inf", ".INF", "+.inf", "+.Inf", "+.INF"].contains word then some (1.0 / 0.0)
  else if ["-.inf", "-.Inf", "-.INF"].contains word then some (-1.0 / 0.0)
  else if [".nan", ".NaN", ".NAN"].contains word then some (0.0 / 0.0)
  else finite? cs

/-- Whether a plain scalar is read as the text that it spells, by new readers and by old ones. -/
def readsAsText (cs : List Char) : Bool :=
  !(cs.isEmpty || isNullWord cs || isBoolWord cs || isOldBoolWord cs || isWhole cs
    || isZeroFilled cs || (real? cs).isSome)

end SpanRelay.Yaml
