import Mathlib.Tactic.SplitIfs
import SpanRelay.Timestamp.Basic

/-! # Elapsed time

Outside leap seconds, a point in time has a place on one line of nanoseconds (`Timestamp.place`), and
the time from one point to another is the distance of their places (`elapsedNanos_of_plain`), negative
if the other one is earlier (`elapsedNanos_neg_iff`). The calendar is short enough for every time in
milliseconds to fit in a word (`elapsedMillis_lt`). -/

namespace SpanRelay

theorem daysInMonth_le (year : Int) (month : Nat) : daysInMonth year month ≤ 31 := by
  unfold daysInMonth
  split_ifs <;> decide

theorem month_mem {year : Int} {month : Nat} (h : 1 ≤ daysInMonth year month) :
    1 ≤ month ∧ month ≤ 12 := by
  unfold daysInMonth at h
  split_ifs at h <;> omega

theorem Date.number_mem (d : Date) : -96000000 ≤ d.number ∧ d.number ≤ 96000000 := by
  have hyear : -262143 ≤ d.year ∧ d.year ≤ 262142 := d.year_mem
  have hmonth := month_mem (Nat.le_trans d.day_mem.1 d.day_mem.2)
  have hday := Nat.le_trans d.day_mem.2 (daysInMonth_le d.year d.month)
  unfold Date.number
  dsimp only
  split_ifs <;> omega

namespace Timestamp

theorem nano_lt_two (t : Timestamp) : t.nano < 2000000000 :=
  t.nano_lt.elim (fun h => Nat.lt_trans h (by decide)) And.right

/-- The place of a point that lies in no leap second, in nanoseconds. -/
def place (t : Timestamp) : Int :=
  (t.date.number * secondsPerDay + t.second) * nanosPerSecond + t.nano

theorem elapsedNanos_of_plain {start stop : Timestamp} (hstart : start.nano < nanosPerSecond)
    (hstop : stop.nano < nanosPerSecond) : elapsedNanos start stop = stop.place - start.place := by
  simp only [elapsedNanos, place, Nat.not_le.2 hstart, Nat.not_le.2 hstop, and_false, if_false]
  unfold secondsPerDay nanosPerSecond
  omega

theorem elapsedNanos_neg_iff {start stop : Timestamp} (hstart : start.nano < nanosPerSecond)
    (hstop : stop.nano < nanosPerSecond) :
    elapsedNanos start stop < 0 ↔
      stop.date.number < start.date.number ∨ stop.date.number = start.date.number ∧
        (stop.second < start.second ∨ stop.second = start.second ∧ stop.nano < start.nano) := by
  have h₁ : start.second < 86400 := start.second_lt
  have h₂ : stop.second < 86400 := stop.second_lt
  rw [elapsedNanos_of_plain hstart hstop, place, place]
  unfold secondsPerDay nanosPerSecond at *
  omega

/-- From `start` to `stop` it takes `ms` whole milliseconds; none if `stop` is earlier. -/
def Lasts (start stop : Timestamp) (ms : Nat) : Prop :=
  if elapsedNanos start stop < 0 then ms = 0
  else (ms * 1000000 : Int) ≤ elapsedNanos start stop ∧
    elapsedNanos start stop < (ms + 1) * 1000000

theorem lasts_elapsedMillis (start stop : Timestamp) :
    start.Lasts stop (start.elapsedMillis stop) := by
  unfold Lasts elapsedMillis
  split_ifs <;> omega

theorem elapsedMillis_lt (start stop : Timestamp) : start.elapsedMillis stop < UInt64.size := by
  obtain ⟨hstart, -⟩ := start.date.number_mem
  obtain ⟨-, hstop⟩ := stop.date.number_mem
  have hsecond : stop.second < 86400 := stop.second_lt
  have hnano := stop.nano_lt_two
  have hnanos : elapsedNanos start stop < 16588900000000000 * 1000000 := by
    unfold elapsedNanos secondsPerDay nanosPerSecond
    dsimp only
    split_ifs <;> omega
  unfold elapsedMillis UInt64.size
  omega

end Timestamp

end SpanRelay
