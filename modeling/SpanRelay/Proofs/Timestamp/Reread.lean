import Mathlib.Data.List.TakeWhile
import SpanRelay.Proofs.Text.Digits
import SpanRelay.Timestamp.Printer
import SpanRelay.Timestamp.Reader

/-! # Points in time that are read back

The reader takes many forms of a point in time, the printer writes one of them: a year of four digits,
or a sign and as many as it needs, fields of two digits, a fraction of three, six or nine, and `Z`.
Each part is read back whatever follows it in the text, and the whole is read as the same point
(`read?_print`), a leap second included. -/

namespace SpanRelay.Timestamp

open Text

variable {rest : List Char}

/-! ### Numbers -/

theorem toNat_of_isDecimal {c : Char} (h : isDecimal c = true) : 48 ≤ c.toNat ∧ c.toNat ≤ 57 := by
  by_cases hdigit : '0' ≤ c ∧ c ≤ '9'
  · exact hdigit
  · rw [isDecimal, digit?, if_neg hdigit, Option.isSome_ite] at h
    -- a letter counts ten at least
    split_ifs at h <;> omega

theorem isBlank_of_isDecimal {c : Char} (h : isDecimal c = true) : isBlank c = false := by
  obtain ⟨hlow, hhigh⟩ := toNat_of_isDecimal h
  simp only [isBlank, blankRanges, List.any_cons, List.any_nil, Bool.or_false, Bool.or_eq_false_iff,
    Bool.and_eq_false_iff, decide_eq_false_iff_not]
  omega

theorem exists_cons_padded (width n : Nat) (rest : List Char) :
    ∃ c cs, padded width n ++ rest = c :: cs ∧ isDecimal c = true := by
  obtain ⟨c, cs, hcs⟩ := List.exists_cons_of_ne_nil (padded_ne_nil width n)
  refine ⟨c, cs ++ rest, by rw [hcs]; rfl, ?_⟩
  exact isDecimal_of_mem_padded width n c (by rw [hcs]; exact List.mem_cons_self)

theorem trimStart_padded (width n : Nat) (rest : List Char) :
    trimStart (padded width n ++ rest) = padded width n ++ rest := by
  obtain ⟨c, cs, hcs, hc⟩ := exists_cons_padded width n rest
  rw [hcs]
  exact trimStart_of_not_isBlank (isBlank_of_isDecimal hc)

theorem number?_padded {width n : Nat} (hw : 0 < width) (h : n < 10 ^ width) (rest : List Char) :
    number? width (padded width n ++ rest) = some (n, rest) := by
  have hlen := length_padded hw h
  have hdigits : ((padded width n ++ rest).take width).takeWhile isDecimal = padded width n := by
    rw [List.take_left' hlen]
    exact List.takeWhile_eq_self_iff.2 (isDecimal_of_mem_padded width n)
  rw [number?, trimStart_padded, hdigits, List.isEmpty_eq_false_iff.2 (padded_ne_nil width n), ofDigits_padded,
    List.drop_left]
  rfl

theorem field?_padded {low high n : Nat} (hn : low ≤ n ∧ n ≤ high) (hhigh : high < 100)
    (rest : List Char) : field? low high (padded 2 n ++ rest) = some (n, rest) := by
  have hlt : n < 10 ^ 2 := by omega
  rw [field?, number?_padded (by decide) hlt]
  exact if_pos hn

theorem mark?_cons {c : Char} (h : isBlank c = false) (rest : List Char) :
    mark? c (c :: rest) = some rest := by
  rw [mark?, trimStart_of_not_isBlank h]
  exact if_pos rfl

/-! ### Dates -/

theorem year?_digit {c : Char} (h : isDecimal c = true) (cs : List Char) :
    year? (c :: cs) = (number? 4 (c :: cs)).map fun r => ((r.1 : Int), r.2) := by
  have hne : ∀ d, isDecimal d = false → c ≠ d := by
    rintro d hd rfl
    rw [h] at hd
    cases hd
  rw [year?, trimStart_of_not_isBlank (isBlank_of_isDecimal h)]
  split
  · rename_i he
    exact absurd (List.cons.inj he).1 (hne '-' rfl)
  · rename_i he
    exact absurd (List.cons.inj he).1 (hne '+' rfl)
  · cases number? 4 (c :: cs) <;> rfl

theorem year?_minus (cs : List Char) : year? ('-' :: cs) =
    if (spanDecimal cs).1.isEmpty then none
    else some (-(ofDigits 10 (spanDecimal cs).1 : Int), (spanDecimal cs).2) := rfl

theorem year?_plus (cs : List Char) : year? ('+' :: cs) =
    if (spanDecimal cs).1.isEmpty then none
    else some ((ofDigits 10 (spanDecimal cs).1 : Int), (spanDecimal cs).2) := rfl

theorem year?_printYear (year : Int) (h : NoDigit rest) :
    year? (printYear year ++ rest) = some (year, rest) := by
  have hsigned : ∀ n, spanDecimal (padded 4 n ++ rest) = (padded 4 n, rest) :=
    fun n => spanDecimal_append (isDecimal_of_mem_padded 4 n) h
  have hne : ∀ n, (padded 4 n).isEmpty = false :=
    fun n => List.isEmpty_eq_false_iff.2 (padded_ne_nil 4 n)
  unfold printYear
  split_ifs with hfour hneg
  · have hlt : year.toNat < 10 ^ 4 := by omega
    have hread := number?_padded (by decide) hlt rest
    obtain ⟨c, cs, hcs, hc⟩ := exists_cons_padded 4 year.toNat rest
    rw [hcs] at hread ⊢
    rw [year?_digit hc, hread, Option.map_some, Int.toNat_of_nonneg hfour.1]
  · have hyear : -(year.natAbs : Int) = year := by omega
    rw [List.cons_append, year?_minus, hsigned, hne, ofDigits_padded, hyear]
    rfl
  · have hyear : (year.natAbs : Int) = year := by omega
    rw [List.cons_append, year?_plus, hsigned, hne, ofDigits_padded, hyear]
    rfl

theorem month_mem (d : Date) : 1 ≤ d.month ∧ d.month ≤ 12 := by
  obtain ⟨hlow, hhigh⟩ := d.day_mem
  have hpos : 0 < daysInMonth d.year d.month := by omega
  unfold daysInMonth at hpos
  split_ifs at hpos <;> omega

theorem day_le (d : Date) : d.day ≤ 31 := by
  have hle := d.day_mem.2
  unfold daysInMonth at hle
  split_ifs at hle <;> omega

theorem of?_date (d : Date) : Date.of? d.year d.month d.day = some d := by
  rw [Date.of?, dif_pos d.year_mem, dif_pos d.day_mem]

theorem date?_print (d : Date) (rest : List Char) :
    date? (printYear d.year ++ '-' :: (padded 2 d.month ++ '-' :: (padded 2 d.day ++ rest))) =
      some (d, rest) := by
  have hdash : NoDigit ('-' :: (padded 2 d.month ++ '-' :: (padded 2 d.day ++ rest))) := by
    rintro c ⟨⟩
    rfl
  obtain ⟨hmonth, hmonth'⟩ := month_mem d
  unfold date?
  rw [year?_printYear d.year hdash]
  simp only [Option.bind_eq_bind, Option.bind_some]
  rw [mark?_cons rfl, Option.bind_some, field?_padded (month_mem d) (by decide), Option.bind_some,
    mark?_cons rfl, Option.bind_some, field?_padded ⟨d.day_mem.1, day_le d⟩ (by decide), Option.bind_some,
    of?_date]
  rfl

/-! ### Times of day -/

theorem fraction?_padded {width n : Nat} (hw : 0 < width) (hw' : width ≤ 9) (h : n < 10 ^ width)
    (hr : NoDigit rest) :
    fraction? ('.' :: (padded width n ++ rest)) = some (n * 10 ^ (9 - width), rest) := by
  have hlen := length_padded hw h
  have hdecimal := isDecimal_of_mem_padded width n
  have htake : NoDigit (rest.take (9 - width)) := by
    intro c hc
    rw [List.head?_take] at hc
    split_ifs at hc
    exact hr c hc
  have hdigits : ((padded width n ++ rest).take 9).takeWhile isDecimal = padded width n := by
    have hspan := spanDecimal_append hdecimal htake
    rw [spanDecimal, List.span_eq_takeWhile_dropWhile] at hspan
    rw [List.take_append, hlen, List.take_of_length_le (by omega)]
    exact congrArg Prod.fst hspan
  have hrest : rest.dropWhile isDecimal = rest := by
    have hspan : spanDecimal ([] ++ rest) = ([], rest) := spanDecimal_append nofun hr
    rw [spanDecimal, List.span_eq_takeWhile_dropWhile] at hspan
    exact congrArg Prod.snd hspan
  rw [fraction?, hdigits, List.isEmpty_eq_false_iff.2 (padded_ne_nil width n), ofDigits_padded, hlen,
    List.drop_left' hlen, hrest]
  rfl

theorem fraction?_printFraction {nano : Nat} (h : nano < nanosPerSecond) (rest : List Char) :
    fraction? (printFraction nano ++ 'Z' :: rest) = some (nano, 'Z' :: rest) := by
  have hmark : NoDigit ('Z' :: rest) := by
    rintro c ⟨⟩
    rfl
  unfold nanosPerSecond at h
  unfold printFraction
  split_ifs with hzero hmillis hmicros
  · rw [hzero]
    rfl
  · have hlt : nano / 1000000 < 10 ^ 3 := by omega
    rw [List.cons_append, fraction?_padded (by decide) (by decide) hlt hmark]
    congr 2
    omega
  · have hlt : nano / 1000 < 10 ^ 6 := by omega
    rw [List.cons_append, fraction?_padded (by decide) (by decide) hlt hmark]
    congr 2
    omega
  · have hlt : nano < 10 ^ 9 := by omega
    rw [List.cons_append, fraction?_padded (by decide) (by decide) hlt hmark]
    congr 2
    omega

/-- The text of a time of day; a leap second is written as second 60. -/
def printTime (t : Timestamp) : List Char :=
  padded 2 (t.second / 3600) ++ ':' :: (padded 2 (t.second / 60 % 60) ++ ':' ::
    (padded 2 (t.second % 60 + if nanosPerSecond ≤ t.nano then 1 else 0) ++
      printFraction (if nanosPerSecond ≤ t.nano then t.nano - nanosPerSecond else t.nano)))

theorem time?_printTime (t : Timestamp) (rest : List Char) :
    time? (printTime t ++ 'Z' :: rest) = some ((t.second, t.nano), 'Z' :: rest) := by
  have hday := t.second_lt
  have hnano := t.nano_lt
  unfold secondsPerDay at hday
  have hhour : 0 ≤ t.second / 3600 ∧ t.second / 3600 ≤ 23 := by omega
  have hminute : 0 ≤ t.second / 60 % 60 ∧ t.second / 60 % 60 ≤ 59 := by omega
  have hsum : t.second / 3600 * 3600 + t.second / 60 % 60 * 60 + t.second % 60 = t.second := by omega
  simp only [printTime, List.append_assoc, List.cons_append]
  unfold time?
  simp only [Option.bind_eq_bind]
  rw [field?_padded hhour (by decide), Option.bind_some, mark?_cons rfl, Option.bind_some,
    field?_padded hminute (by decide), Option.bind_some, mark?_cons rfl, Option.bind_some]
  by_cases hleap : nanosPerSecond ≤ t.nano
  · obtain ⟨hlast, htwo⟩ := hnano.resolve_left (Nat.not_lt.2 hleap)
    have hstart : t.second / 3600 * 3600 + t.second / 60 % 60 * 60 + 59 = t.second := by omega
    have hfraction : t.nano - nanosPerSecond < nanosPerSecond := by omega
    rw [if_pos hleap, if_pos hleap, hlast, field?_padded (by decide) (by decide), Option.bind_some,
      fraction?_printFraction hfraction, Option.bind_some, if_pos rfl, hstart,
      Nat.sub_add_cancel hleap]
  · have hsecond : 0 ≤ t.second % 60 + 0 ∧ t.second % 60 + 0 ≤ 60 := by omega
    rw [if_neg hleap, if_neg hleap, field?_padded hsecond (by decide), Option.bind_some,
      fraction?_printFraction (Nat.not_le.1 hleap), Option.bind_some, if_neg (by omega),
      Nat.add_zero, hsum]

/-! ### Points in time -/

theorem atOffset?_zero (t : Timestamp) : atOffset? t.date t.second t.nano 0 = some t := by
  have hday : (t.second : Int) < secondsPerDay := by exact_mod_cast t.second_lt
  have hmod : ((t.second : Int) - 0 * 60) % secondsPerDay = t.second := by
    rw [Int.zero_mul, Int.sub_zero]
    exact Int.emod_eq_of_lt (by omega) hday
  unfold atOffset?
  dsimp only
  rw [if_neg (by omega), if_neg (by omega), hmod]
  simp only [Option.bind_eq_bind, Option.bind_some, Int.toNat_natCast]
  rw [of?, dif_pos t.second_lt, dif_pos t.nano_lt]

theorem print_eq (t : Timestamp) :
    t.print = printYear t.date.year ++ '-' :: (padded 2 t.date.month ++ '-' ::
      (padded 2 t.date.day ++ 'T' :: (printTime t ++ ['Z']))) := by
  simp [print, printTime]

/-- **A point in time** is read back. -/
theorem read?_print (t : Timestamp) : read? t.print = some t := by
  rw [print_eq, read?]
  simp only [Option.bind_eq_bind]
  rw [date?_print, Option.bind_some]
  change (time? (printTime t ++ ['Z'])).bind _ = _
  rw [time?_printTime]
  exact atOffset?_zero t

end SpanRelay.Timestamp
