import SpanRelay.Decimal.Shortest
import SpanRelay.Text.Digits

/-! # How a decimal is laid out

A `Layout` fixes what the digits alone do not: where positional notation ends, whether a whole
number keeps a fraction, and the words for what has no digits. `Layout.write` is the text of a
floating point number in a layout. -/

namespace SpanRelay.Decimal

/-- The choices of a written form for floating point numbers. -/
structure Layout where
  /-- Positional notation is for numbers from `10 ^ low` to below `10 ^ high`, where there are
  bounds. -/
  positional : Option (Int × Int)
  /-- Whether a whole number in positional notation ends in `.0`. -/
  point : Bool
  nan : String
  infinity : String
deriving Repr

/-- The form in serialized records: an exponent, always with its sign, outside `10 ^ -5` to
`10 ^ 16`. -/
def Layout.exchange : Layout := ⟨some (-5, 16), true, "null", "null"⟩

/-- The form in messages and tables: positional throughout, whole numbers without a fraction. -/
def Layout.plain : Layout := ⟨none, false, "NaN", "inf"⟩

/-- The form of the settings format with tables: positional throughout. -/
def Layout.settings : Layout := ⟨none, true, "nan", "inf"⟩

/-- The form of the indented settings format. -/
def Layout.indented : Layout := { Layout.exchange with nan := ".nan", infinity := ".inf" }

/-- The digits `ds` with a decimal point such that the first digit counts `10 ^ order`. -/
def fixedPoint (ds : List Char) (order : Int) (point : Bool) : List Char :=
  if order < 0 then '0' :: '.' :: (List.replicate (-order - 1).toNat '0' ++ ds)
  else
    let whole := order.toNat + 1
    if ds.length ≤ whole then
      ds ++ List.replicate (whole - ds.length) '0' ++ (if point then ['.', '0'] else [])
    else ds.take whole ++ '.' :: ds.drop whole

/-- The digits `ds` with a decimal point after the first and the exponent `order`. -/
def scientific (ds : List Char) (order : Int) : List Char :=
  ds.take 1 ++ (if ds.length ≤ 1 then [] else '.' :: ds.drop 1)
    ++ 'e' :: (if order < 0 then '-' else '+') :: Text.digits order.natAbs

/-- The text of a nonnegative decimal. -/
def Layout.writeDigits (l : Layout) (d : Digits) : List Char :=
  let ds := Text.digits d.significand
  let order := d.exponent + (ds.length - 1 : Nat)
  match l.positional with
  | none => fixedPoint ds order l.point
  | some (low, high) =>
    if d.significand = 0 ∨ low ≤ order ∧ order < high then fixedPoint ds order l.point
    else scientific ds order

/-- The text of a floating point number: its shortest digits in the given layout. -/
def Layout.write (l : Layout) (x : Float) : List Char :=
  match Shape.ofFloat x with
  | .nan => l.nan.toList
  | .infinite negative => (if negative then ['-'] else []) ++ l.infinity.toList
  | .finite negative m p => (if negative then ['-'] else []) ++ l.writeDigits (shortest m p)

end SpanRelay.Decimal
