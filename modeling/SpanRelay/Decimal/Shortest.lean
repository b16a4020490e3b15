import SpanRelay.Word

/-! # Shortest decimals

The fewest decimal digits that read back as a given binary floating point number. `Shape` splits a
number into its exact parts, a finite one being `mantissa * 2 ^ power`. The reals that round to it
form an interval around it; on the grid of the multiples of `10 ^ exponent` only the two neighbours
of the number can be the nearest points, so `onGrid?` tries these two, and `shortest` takes the
coarsest grid with a hit. -/

namespace SpanRelay.Decimal

/-- The exact parts of a floating point number. -/
inductive Shape
  | nan
  | infinite (negative : Bool)
  /-- The number `mantissa * 2 ^ power`, with its sign. -/
  | finite (negative : Bool) (mantissa : Nat) (power : Int)
deriving DecidableEq, Repr

/-- The mantissa of the least normal number, a power of two. -/
def hidden : Nat := Word.range 52

/-- The least power of a finite number. -/
def leastPower : Int := -1074

/-- The parts of a number, from its sign bit, its 11 exponent bits and its 52 fraction bits. -/
def Shape.ofFloat (x : Float) : Shape :=
  let bits := x.toBits.toNat
  let negative := bits / Word.range 63 % 2 == 1
  let field := bits / hidden % Word.range 11
  let fraction := bits % hidden
  if field = Word.range 11 - 1 then
    if fraction = 0 then .infinite negative else .nan
  else if field = 0 then .finite negative fraction leastPower
  else .finite negative (hidden + fraction) (leastPower + (field - 1 : Nat))

/-- A decimal: `significand * 10 ^ exponent`. -/
structure Digits where
  significand : Nat
  exponent : Int
deriving DecidableEq, Repr

/-- A positive number and the ends of the interval that rounds to it, as multiples of the fraction
`1 / scale`; the ends belong to the interval if `closed`. -/
structure Target where
  low : Nat
  value : Nat
  high : Nat
  scale : Nat
  closed : Bool

/-- The interval of `mantissa * 2 ^ power` in quarters of the last place: half a place on either
side, but a quarter below a power of two, whose lower neighbour is nearer. -/
def Target.of (mantissa : Nat) (power : Int) : Target :=
  let below := if mantissa = hidden ∧ leastPower < power then 1 else 2
  let unit := Nat.pow 2 (power - 2).toNat
  { low := (4 * mantissa - below) * unit
    value := 4 * mantissa * unit
    high := (4 * mantissa + 2) * unit
    scale := Nat.pow 2 (2 - power).toNat
    closed := mantissa % 2 = 0 }

/-- Whether the decimal `n * 10 ^ exponent` lies in the interval. -/
def Target.holds (t : Target) (exponent : Int) (n : Nat) : Bool :=
  let point := n * Nat.pow 10 exponent.toNat * t.scale
  let down := Nat.pow 10 (-exponent).toNat
  if t.closed then t.low * down ≤ point && point ≤ t.high * down
  else t.low * down < point && point < t.high * down

/-- The nearest point to the number on the grid of the multiples of `10 ^ exponent`, if it lies in
the interval: of two points in the interval the nearer, of two equally near the even one. -/
def Target.onGrid? (t : Target) (exponent : Int) : Option Digits :=
  let a := t.value * Nat.pow 10 (-exponent).toNat
  let b := t.scale * Nat.pow 10 exponent.toNat
  let n := a / b
  let up := if 2 * (a % b) = b then n % 2 = 1 else b < 2 * (a % b)
  match t.holds exponent n, t.holds exponent (n + 1) with
  | true, true => some ⟨if up then n + 1 else n, exponent⟩
  | true, false => some ⟨n, exponent⟩
  | false, true => some ⟨n + 1, exponent⟩
  | false, false => none

/-- The power of ten of the first digit: the largest `p` with `10 ^ p` at most the number. -/
def Target.order (t : Target) : Int :=
  let whole := t.value / t.scale
  if 0 < whole then ((List.range 310).filter fun k => Nat.pow 10 (k + 1) ≤ whole).length
  else -(((List.range 330).filter fun k => t.value * Nat.pow 10 (k + 1) < t.scale).length + 1 : Nat)

/-- A decimal without the zeros its significand ends with. -/
def Digits.trimmed (d : Digits) : Nat → Digits
  | 0 => d
  | fuel + 1 =>
    if 0 < d.significand ∧ d.significand % 10 = 0 then
      Digits.trimmed ⟨d.significand / 10, d.exponent + 1⟩ fuel
    else d

/-- The shortest decimal that reads back as `mantissa * 2 ^ power`, nearest to it among those; no
more than 17 digits are ever needed. -/
def shortest (mantissa : Nat) (power : Int) : Digits :=
  if mantissa = 0 then ⟨0, 0⟩
  else
    let t := Target.of mantissa power
    let order := t.order
    match (List.range 17).findSome? fun n : Nat => t.onGrid? (order - n) with
    | some d => d.trimmed 20
    | none => ⟨mantissa, power⟩

end SpanRelay.Decimal
