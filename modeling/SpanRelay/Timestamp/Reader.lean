import SpanRelay.Text.Blank
import SpanRelay.Text.Digits
import SpanRelay.Timestamp.Basic

/-! # Reading points in time

`Timestamp.read?` reads RFC 3339 with some liberties: the letters may be small, a blank may stand
for the `T`, blanks may stand before numbers and punctuation, numbers may lack leading zeros, the
colon of the offset may be missing, and `UTC` is an offset. An offset is taken off, so that the
result is in UTC. -/

namespace SpanRelay.Timestamp

open Text

/-- A number of at most `width` digits, blanks before it. -/
def number? (width : Nat) (cs : List Char) : Option (Nat × List Char) :=
  let cs := trimStart cs
  let ds := (cs.take width).takeWhile isDecimal
  if ds.isEmpty then none else some (ofDigits 10 ds, cs.drop ds.length)

/-- A number of at most two digits in the given range. -/
def field? (low high : Nat) (cs : List Char) : Option (Nat × List Char) := do
  let (n, rest) ← number? 2 cs
  if low ≤ n ∧ n ≤ high then some (n, rest) else none

/-- What follows the character `c`, blanks before it. -/
def mark? (c : Char) (cs : List Char) : Option (List Char) :=
  match trimStart cs with
  | d :: rest => if d = c then some rest else none
  | [] => none

/-- A year: four digits at most, or a sign and any number of digits. -/
def year? (cs : List Char) : Option (Int × List Char) := do
  match trimStart cs with
  | '-' :: cs =>
    let (ds, rest) := spanDecimal cs
    if ds.isEmpty then none else some (-(ofDigits 10 ds : Int), rest)
  | '+' :: cs =>
    let (ds, rest) := spanDecimal cs
    if ds.isEmpty then none else some ((ofDigits 10 ds : Int), rest)
  | cs =>
    let (n, rest) ← number? 4 cs
    return ((n : Int), rest)

/-- A date, its fields between hyphens, and what follows. -/
def date? (cs : List Char) : Option (Date × List Char) := do
  let (year, cs) ← year? cs
  let cs ← mark? '-' cs
  let (month, cs) ← field? 1 12 cs
  let cs ← mark? '-' cs
  let (day, cs) ← field? 1 31 cs
  return (← Date.of? year month day, cs)

/-- A fraction in nanoseconds, digits past the ninth dropped; zero if there is none. -/
def fraction? : List Char → Option (Nat × List Char)
  | '.' :: cs =>
    let ds := (cs.take 9).takeWhile isDecimal
    if ds.isEmpty then none
    else some (ofDigits 10 ds * Nat.pow 10 (9 - ds.length), (cs.drop ds.length).dropWhile isDecimal)
  | cs => some (0, cs)

/-- A time of day as seconds and nanoseconds; second 60 is a leap second. -/
def time? (cs : List Char) : Option ((Nat × Nat) × List Char) := do
  let (hour, cs) ← field? 0 23 cs
  let cs ← mark? ':' cs
  let (minute, cs) ← field? 0 59 cs
  let cs ← mark? ':' cs
  let (second, cs) ← field? 0 60 cs
  let (nano, cs) ← fraction? cs
  let start := hour * 3600 + minute * 60
  if second = 60 then some ((start + 59, nano + nanosPerSecond), cs)
  else some ((start + second, nano), cs)

/-- The sign of an offset: whether it is negative. -/
def offsetSign? : List Char → Option (Bool × List Char)
  | '+' :: cs => some (false, cs)
  | '-' :: cs => some (true, cs)
  | '\u2212' :: cs => some (true, cs)
  | _ => none

/-- Two digits, the value below `bound`. -/
def twoDigits? (bound : Nat) : List Char → Option (Nat × List Char)
  | a :: b :: cs => do
    let n ← numeral? 10 [a, b]
    if n < bound then some (n, cs) else none
  | _ => none

/-- A nonzero offset in minutes: a sign, two digits of hours, colons or blanks, two digits of
minutes; less than a day. -/
def signedOffset? (cs : List Char) : Option (Int × List Char) := do
  let (negative, cs) ← offsetSign? cs
  let (hours, cs) ← twoDigits? 24 cs
  let cs := cs.dropWhile fun c => c = ':' || isBlank c
  let (minutes, cs) ← twoDigits? 60 cs
  let n : Int := (hours * 60 + minutes : Nat)
  return (if negative then -n else n, cs)

/-- The offset from UTC in minutes. -/
def offset? (cs : List Char) : Option (Int × List Char) :=
  match trimStart cs with
  | 'Z' :: cs | 'z' :: cs => some (0, cs)
  | a :: b :: c :: cs =>
    if [a, b, c].map Char.toUpper = ['U', 'T', 'C'] then some (0, cs)
    else signedOffset? (a :: b :: c :: cs)
  | cs => signedOffset? cs

/-- The point in UTC for a local date and time at an offset in minutes. -/
def atOffset? (date : Date) (second nano : Nat) (offset : Int) : Option Timestamp := do
  let shifted : Int := second - offset * 60
  let date ←
    if shifted < 0 then date.previous?
    else if (secondsPerDay : Int) ≤ shifted then date.next?
    else some date
  of? date (shifted % secondsPerDay).toNat nano

/-- The point in time a text spells. -/
def read? (cs : List Char) : Option Timestamp := do
  let (date, cs) ← date? cs
  let cs ←
    match cs with
    | 'T' :: cs | 't' :: cs | ' ' :: cs => some cs
    | _ => none
  let ((second, nano), cs) ← time? cs
  let (offset, cs) ← offset? cs
  if (trimStart cs).isEmpty then atOffset? date second nano offset else none

end SpanRelay.Timestamp
