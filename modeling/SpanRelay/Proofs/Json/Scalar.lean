import SpanRelay.Json.Printer
import SpanRelay.Json.Reader
import SpanRelay.Proofs.Decimal.Numeral

/-! # Words, numbers and strings that are read back

What was printed of a value without parts is read back, whatever `Follows` it in the text: a string
(`string?_quoted`), a whole number of 64 bits (`number?_digits`), and the numeral of a floating point
number, which is read as `Numeral.scaled?` says (`number?_text`). -/

namespace SpanRelay.Json

open Text Decimal

/-- What may follow a value in a text: nothing, or a mark that is not part of a number. -/
def Follows (rest : List Char) : Prop := ∀ c, rest.head? = some c → c = ',' ∨ c = ']' ∨ c = '}'

theorem follows_nil : Follows [] := nofun

theorem follows_cons {c : Char} (h : c = ',' ∨ c = ']' ∨ c = '}') (cs : List Char) :
    Follows (c :: cs) := by
  intro c' hc
  rw [List.head?_cons] at hc
  rw [← Option.some.inj hc]
  exact h

variable {rest : List Char}

theorem Follows.noDigit (h : Follows rest) : NoDigit rest := by
  intro c hc
  rcases h c hc with rfl | rfl | rfl <;> rfl

/-! ### Strings -/

theorem filled_hexDigits {n : Nat} (h : n < 0x20) :
    filled 4 (hexDigits n) = ['0', '0', digitChar (n / 16), digitChar (n % 16)] := by
  rcases Nat.lt_or_ge n 16 with hn | hn
  · rw [hexDigits, if_pos hn, Nat.div_eq_of_lt hn, Nat.mod_eq_of_lt hn]
    rfl
  · rw [hexDigits, if_neg (Nat.not_lt.2 hn), hexDigits, if_pos (by omega)]
    rfl

theorem numeral?_hex {n : Nat} (h : n < 0x20) :
    numeral? 16 ['0', '0', digitChar (n / 16), digitChar (n % 16)] = some n := by
  have hall : ∀ n < 0x20,
      numeral? 16 ['0', '0', digitChar (n / 16), digitChar (n % 16)] = some n := by decide
  exact hall n h

theorem join?_char (c : Char) (ps : List Piece) : join? (.char c :: ps) = (join? ps).map (c :: ·) :=
  rfl

theorem join?_unit {n : Nat} (h : n < 0x20) (ps : List Piece) :
    join? (.unit n :: ps) = (join? ps).map (Char.ofNat n :: ·) := by
  have hhigh : isHigh n = false := by
    unfold isHigh
    rw [Bool.and_eq_false_iff]
    exact Or.inl (decide_eq_false (by omega))
  have hlow : isLow n = false := by
    unfold isLow
    rw [Bool.and_eq_false_iff]
    exact Or.inl (decide_eq_false (by omega))
  have hneither : (isHigh n || isLow n) = false := by rw [hhigh, hlow]; rfl
  rcases ps with _ | ⟨c | m, ps⟩
  · exact if_neg (ne_true_of_eq_false hneither)
  · rw [join?_char, Option.map_map]
    exact if_neg (ne_true_of_eq_false hneither)
  · exact (if_neg (ne_true_of_eq_false hhigh)).trans (if_neg (ne_true_of_eq_false hlow))

/-- **One character** that is written in a string is one piece, and the piece stands for it. -/
theorem exists_piece (c : Char) (cs : List Char) : ∃ p,
    pieces? (escape c ++ cs) = (pieces? cs).map (fun r => (p :: r.1, r.2)) ∧
      ∀ ps, join? (p :: ps) = (join? ps).map (c :: ·) := by
  unfold escape
  split_ifs with h1 h2 h3 h4 h5 h6 h7 hcontrol
  all_goals try
    subst c
    refine ⟨.char _, ?_, join?_char _⟩
    simp only [List.cons_append, List.nil_append]
    rw [pieces?]
    · cases pieces? cs <;> rfl
    · exact nofun
  · refine ⟨.unit c.toNat, ?_, fun ps => ?_⟩
    · rw [unitEscape, filled_hexDigits hcontrol]
      simp only [List.cons_append, List.nil_append]
      rw [pieces?, numeral?_hex hcontrol]
      cases pieces? cs <;> rfl
    · rw [join?_unit hcontrol, Char.ofNat_toNat]
  · refine ⟨.char c, ?_, join?_char c⟩
    rw [List.singleton_append, pieces?, if_neg hcontrol]
    · cases pieces? cs <;> rfl
    · exact h1
    · exact fun _ _ _ _ _ he => (h2 he).elim
    · exact fun _ _ he => (h2 he).elim

/-- **A string** is read back. -/
theorem string?_quoted (s : String) (rest : List Char) :
    string? (escaped s.toList ++ '"' :: rest) = some (some s, rest) := by
  have hpieces : ∀ cs : List Char, ∃ ps,
      pieces? (escaped cs ++ '"' :: rest) = some (ps, rest) ∧ join? ps = some cs := by
    intro cs
    induction cs with
    | nil => exact ⟨[], rfl, rfl⟩
    | cons c cs ih =>
      obtain ⟨ps, hps, hjoin⟩ := ih
      obtain ⟨p, hp, hpjoin⟩ := exists_piece c (escaped cs ++ '"' :: rest)
      refine ⟨p :: ps, ?_, by rw [hpjoin, hjoin]; rfl⟩
      rw [escaped, List.flatMap_cons, List.append_assoc]
      exact hp.trans (by rw [hps]; rfl)
  obtain ⟨ps, hps, hjoin⟩ := hpieces s.toList
  unfold string?
  rw [hps]
  change some ((join? ps).map String.ofList, rest) = _
  rw [hjoin, Option.map_some, String.ofList_toList]

/-! ### Numbers -/

theorem fraction_of_ne {cs : List Char} (h : cs.head? ≠ some '.') : fraction cs = ([], cs) := by
  unfold fraction
  split
  · exact absurd rfl h
  · rfl

theorem exponent?_of_follows (h : Follows rest) : exponent? rest = some (0, rest) := by
  cases rest with
  | nil => rfl
  | cons c cs =>
    rw [exponent?, if_neg]
    rintro (rfl | rfl) <;> rcases h _ rfl with h | h | h <;> cases h

theorem exponent?_digits (e : Int) (h : NoDigit rest) :
    exponent? ('e' :: (if e < 0 then '-' else '+') :: (digits e.natAbs ++ rest)) =
      some (e, rest) := by
  have hsign : takeSign ((if e < 0 then '-' else '+') :: (digits e.natAbs ++ rest)) =
      (decide (e < 0), digits e.natAbs ++ rest) := by
    by_cases he : e < 0
    · rw [if_pos he, decide_eq_true he]
      rfl
    · rw [if_neg he, decide_eq_false he]
      rfl
  have hne : (digits e.natAbs).isEmpty = false := List.isEmpty_eq_false_iff.2 (digits_ne_nil _)
  rw [exponent?, if_pos (Or.inl rfl), hsign]
  dsimp only
  rw [spanDecimal_append (isDecimal_of_mem_digits _) h]
  dsimp only
  rw [hne, ofDigits_digits]
  by_cases he : e < 0
  · simp only [Bool.false_eq_true, if_false, he, decide_true, if_true]
    congr 2
    omega
  · simp only [Bool.false_eq_true, if_false, he, decide_false]
    congr 2
    omega

theorem number?_of_parts {negative : Bool} {cs ds tail frac tail' : List Char} {e : Int}
    (hspan : spanDecimal cs = (ds, tail)) (hne : ds ≠ [])
    (hlead : ds.length ≤ 1 ∨ ds.head? ≠ some '0') (hfrac : fraction tail = (frac, tail'))
    (hpoint : tail.head? = some '.' → frac ≠ []) (hexp : exponent? tail' = some (e, rest)) :
    number? negative cs =
      match (if tail.length == rest.length then whole? negative ds else none) with
      | some v => some (v, rest)
      | none =>
        match Numeral.scaled? ⟨ds, frac, e⟩ negative with
        | some x => some (.real x, rest)
        | none => some (.unreadable, rest) := by
  have hds : (ds.isEmpty || (decide (1 < ds.length) && ds.head? == some '0')) = false := by
    rw [List.isEmpty_eq_false_iff.2 hne, Bool.false_or, Bool.and_eq_false_iff]
    rcases hlead with h | h
    · exact Or.inl (decide_eq_false (Nat.not_lt.2 h))
    · exact Or.inr (beq_eq_false_iff_ne.2 h)
  have htail : (tail.head? == some '.' && frac.isEmpty) = false := by
    rw [Bool.and_eq_false_iff]
    by_cases h : tail.head? = some '.'
    · exact Or.inr (List.isEmpty_eq_false_iff.2 (hpoint h))
    · exact Or.inl (beq_eq_false_iff_ne.2 h)
  unfold number?
  rw [hspan]
  dsimp only
  rw [hds, hfrac]
  dsimp only
  rw [htail, hexp]
  rfl

/-- **A whole number** that fits 64 bits is read back. -/
theorem number?_digits {negative : Bool} {n : Nat} {v : Json} (h : Follows rest)
    (hv : whole? negative (digits n) = some v) :
    number? negative (digits n ++ rest) = some (v, rest) := by
  have hpoint : rest.head? ≠ some '.' := by
    intro hc
    rcases h _ hc with h | h | h <;> cases h
  have hlead : (digits n).length ≤ 1 ∨ (digits n).head? ≠ some '0' := by
    rcases Nat.eq_zero_or_pos n with rfl | hn
    · rw [digits_of_lt (by decide)]
      exact Or.inl (Nat.le_refl 1)
    · exact Or.inr (head?_digits hn)
  rw [number?_of_parts (spanDecimal_append (isDecimal_of_mem_digits n) h.noDigit) (digits_ne_nil n)
    hlead (fraction_of_ne hpoint) (fun hc => absurd hc hpoint) (exponent?_of_follows h),
    if_pos (beq_self_eq_true _), hv]

/-- **The numeral of a floating point number** is read as scaled reading says. -/
theorem number?_text {n : Numeral} (hn : n.Proper) {negative : Bool} {x : Float}
    (hx : n.scaled? negative = some x) (h : Follows rest) :
    number? negative (n.text ++ rest) = some (.real x, rest) := by
  -- what follows the whole part, and what follows the fraction
  obtain ⟨tail', htail'⟩ : ∃ tail', tail' = (if n.exponent = 0 then []
    else 'e' :: (if n.exponent < 0 then '-' else '+') :: digits n.exponent.natAbs) ++ rest := ⟨_, rfl⟩
  obtain ⟨tail, htail⟩ : ∃ tail, tail =
    (if n.fraction = [] then [] else '.' :: n.fraction) ++ tail' := ⟨_, rfl⟩
  have htext : n.text ++ rest = n.whole ++ tail := by
    rw [htail, htail', Numeral.text, List.append_assoc, List.append_assoc]
  have hexp : exponent? tail' = some (n.exponent, rest) := by
    by_cases he : n.exponent = 0
    · rw [htail', if_pos he, he]
      exact exponent?_of_follows h
    · rw [htail', if_neg he]
      exact exponent?_digits n.exponent h.noDigit
  have hmark : tail'.head? ≠ some '.' ∧ NoDigit tail' := by
    by_cases he : n.exponent = 0
    · rw [htail', if_pos he]
      refine ⟨fun hc => ?_, h.noDigit⟩
      rcases h _ hc with h | h | h <;> cases h
    · rw [htail', if_neg he]
      refine ⟨fun hc => ?_, fun c hc => ?_⟩
      · cases hc
      · cases hc
        rfl
  have hfrac : fraction tail = (n.fraction, tail') ∧ NoDigit tail ∧
      (tail.head? = some '.' → n.fraction ≠ []) ∧ rest.length < tail.length := by
    by_cases hf : n.fraction = []
    · have he := hn.parts.resolve_left (not_not.2 hf)
      rw [htail, if_pos hf, List.nil_append, hf]
      refine ⟨fraction_of_ne hmark.1, hmark.2, fun hc => absurd hc hmark.1, ?_⟩
      rw [htail', if_neg he, List.length_append, List.length_cons]
      omega
    · rw [htail, if_neg hf]
      refine ⟨spanDecimal_append hn.fraction hmark.2, fun c hc => ?_, fun _ => hf, ?_⟩
      · cases hc
        rfl
      · rw [htail', List.length_append, List.length_cons, List.length_append]
        omega
  obtain ⟨hfrac, hdigit, hpoint, hlen⟩ := hfrac
  have hplain : ¬ (tail.length == rest.length) = true := by
    rw [beq_iff_eq]
    omega
  rw [htext, number?_of_parts (spanDecimal_append hn.whole hdigit) hn.nonempty hn.leading hfrac hpoint
    hexp, if_neg hplain]
  dsimp only
  rw [hx]

end SpanRelay.Json
