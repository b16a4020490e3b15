import SpanRelay.Text.Digits
import SpanRelay.Timestamp.Basic

/-! # Writing points in time

`Timestamp.print` is the RFC 3339 form in UTC: a year outside four digits has a sign, and the
fraction has as few groups of three digits as it needs. -/

namespace SpanRelay.Timestamp

open Text

/-- The year with four digits, or with a sign and at least four. -/
def printYear (year : Int) : List Char :=
  if 0 ≤ year ∧ year ≤ 9999 then padded 4 year.toNat
  else (if year < 0 then '-' else '+') :: padded 4 year.natAbs

/-- The fraction of a second: none, or three, six or nine digits after a point. -/
def printFraction (nano : Nat) : List Char :=
  if nano = 0 then []
  else if nano % 1000000 = 0 then '.' :: padded 3 (nano / 1000000)
  else if nano % 1000 = 0 then '.' :: padded 6 (nano / 1000)
  else '.' :: padded 9 nano

/-- The text of a point in time; a leap second is written as second 60. -/
def print (t : Timestamp) : List Char :=
  let leap := nanosPerSecond ≤ t.nano
  let second := t.second % 60 + if leap then 1 else 0
  let nano := if leap then t.nano - nanosPerSecond else t.nano
  printYear t.date.year ++ '-' :: padded 2 t.date.month ++ '-' :: padded 2 t.date.day
    ++ 'T' :: padded 2 (t.second / 3600) ++ ':' :: padded 2 (t.second / 60 % 60)
    ++ ':' :: padded 2 second ++ printFraction nano ++ ['Z']

end SpanRelay.Timestamp
