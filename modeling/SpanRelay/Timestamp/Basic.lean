/-! # Points in time

A `Timestamp` is a date of the Gregorian calendar and a time of day in UTC, to the nanosecond. A
second may be followed by a leap second, which counts as more than a thousand million nanoseconds of
the last second of its minute. `elapsedMillis` measures from one point to another. -/

namespace SpanRelay

/-- Every fourth year is a leap year, but of the full centuries only every fourth. -/
def isLeapYear (year : Int) : Bool :=
  year % 4 = 0 && (year % 100 ≠ 0 || year % 400 = 0)

/-- How many days a month has; none if there is no such month. -/
def daysInMonth (year : Int) (month : Nat) : Nat :=
  if month = 2 then if isLeapYear year then 29 else 28
  else if month = 4 ∨ month = 6 ∨ month = 9 ∨ month = 11 then 30
  else if 1 ≤ month ∧ month ≤ 12 then 31
  else 0

/-- The calendar begins with this year. -/
def firstYear : Int := -262143

/-- The calendar ends with this year. -/
def lastYear : Int := 262142

/-- A day of the calendar. -/
structure Date where
  year : Int
  month : Nat
  day : Nat
  year_mem : firstYear ≤ year ∧ year ≤ lastYear
  day_mem : 1 ≤ day ∧ day ≤ daysInMonth year month
deriving DecidableEq, Repr

namespace Date

/-- The day of the given year, month and day of the month, if there is one. -/
def of? (year : Int) (month day : Nat) : Option Date :=
  if hy : firstYear ≤ year ∧ year ≤ lastYear then
    if hd : 1 ≤ day ∧ day ≤ daysInMonth year month then some ⟨year, month, day, hy, hd⟩ else none
  else none

/-- The day after, unless the calendar ends. -/
def next? (d : Date) : Option Date :=
  if d.day < daysInMonth d.year d.month then of? d.year d.month (d.day + 1)
  else if d.month < 12 then of? d.year (d.month + 1) 1
  else of? (d.year + 1) 1 1

/-- The day before, unless the calendar begins. -/
def previous? (d : Date) : Option Date :=
  if 1 < d.day then of? d.year d.month (d.day - 1)
  else if 1 < d.month then of? d.year (d.month - 1) (daysInMonth d.year (d.month - 1))
  else of? (d.year - 1) 12 31

/-- The number of the day, counted so that consecutive days have consecutive numbers: years begin
with March, so that the leap day comes last. -/
def number (d : Date) : Int :=
  let year := if d.month ≤ 2 then d.year - 1 else d.year
  let month := (d.month + 9) % 12
  365 * year + year / 4 - year / 100 + year / 400 + ((153 * month + 2) / 5 + d.day : Nat)

end Date

def secondsPerDay : Nat := 86400

def nanosPerSecond : Nat := 1000000000

/-- A point in time in UTC. -/
structure Timestamp where
  date : Date
  second : Nat
  /-- The nanosecond of the second, counting on through a leap second. -/
  nano : Nat
  second_lt : second < secondsPerDay
  nano_lt : nano < nanosPerSecond ∨ second % 60 = 59 ∧ nano < 2 * nanosPerSecond
deriving DecidableEq, Repr

namespace Timestamp

/-- The point with the given parts, if they are in range. -/
def of? (date : Date) (second nano : Nat) : Option Timestamp :=
  if hs : second < secondsPerDay then
    if hn : nano < nanosPerSecond ∨ second % 60 = 59 ∧ nano < 2 * nanosPerSecond then
      some ⟨date, second, nano, hs, hn⟩
    else none
  else none

/-- The nanoseconds from `start` to `stop`. A leap second that one of them lies in counts for the
other if that has the later time of day. -/
def elapsedNanos (start stop : Timestamp) : Int :=
  let leap : Int :=
    if start.second < stop.second ∧ nanosPerSecond ≤ start.nano then 1
    else if stop.second < start.second ∧ nanosPerSecond ≤ stop.nano then -1
    else 0
  let days := stop.date.number - start.date.number
  let seconds := days * secondsPerDay + stop.second - start.second + leap
  seconds * nanosPerSecond + stop.nano - start.nano

/-- The whole milliseconds from `start` to `stop`, zero if `stop` is earlier. -/
def elapsedMillis (start stop : Timestamp) : Nat := (elapsedNanos start stop / 1000000).toNat

end Timestamp

/-- The moment at which every simulation begins, so that its clock does not hang on that of the
system. -/
def simulationStart : Timestamp where
  date := ⟨2024, 1, 1, by decide, by decide⟩
  second := 0
  nano := 0
  second_lt := by decide
  nano_lt := by decide

end SpanRelay
