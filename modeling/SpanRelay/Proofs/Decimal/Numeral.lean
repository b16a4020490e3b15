import Mathlib.Tactic.SplitIfs
import SpanRelay.Decimal.Layout
import SpanRelay.Decimal.Reader
import SpanRelay.Proofs.Decimal.Shortest
import SpanRelay.Proofs.Text.Digits

/-! # The numerals of exchanged records

`Digits.numeral` is the numeral in which a decimal is written in a record (`writeDigits_exchange`).
Scaled reading takes up the digits of a numeral while they fit a word (`foldl_addWhole`,
`addFraction_of_le`), and it always gets a finite number out of the numeral of a shortest decimal
(`isSome_scaled?_shortest`). So a finite number that was written is read again as a number, and
`reread` is the number that it is read as. -/

namespace SpanRelay.Decimal

open Text

/-- The text of a numeral. A fraction without digits and an exponent of zero are left out. -/
def Numeral.text (n : Numeral) : List Char :=
  n.whole ++ ((if n.fraction = [] then [] else '.' :: n.fraction) ++
    (if n.exponent = 0 then []
      else 'e' :: (if n.exponent < 0 then '-' else '+') :: digits n.exponent.natAbs))

/-- The parts of digits with a decimal point such that the first digit counts `10 ^ order`. -/
def Numeral.fixed (ds : List Char) (order : Int) : Numeral :=
  if order < 0 then ⟨['0'], List.replicate (-order - 1).toNat '0' ++ ds, 0⟩
  else
    let whole := order.toNat + 1
    if ds.length ≤ whole then ⟨ds ++ List.replicate (whole - ds.length) '0', ['0'], 0⟩
    else ⟨ds.take whole, ds.drop whole, 0⟩

/-- The parts in which a decimal is written in a record. -/
def Digits.numeral (d : Digits) : Numeral :=
  let ds := digits d.significand
  let order := d.exponent + (ds.length - 1 : Nat)
  if d.significand = 0 ∨ -5 ≤ order ∧ order < 16 then .fixed ds order
  else ⟨ds.take 1, ds.drop 1, order⟩

/-! ### Writing -/

theorem Numeral.text_of_fraction (whole : List Char) {fraction : List Char} (h : fraction ≠ []) :
    Numeral.text ⟨whole, fraction, 0⟩ = whole ++ '.' :: fraction := by
  rw [Numeral.text, if_neg h, if_pos rfl, List.append_nil]

theorem fixedPoint_eq_text {ds : List Char} (h : ds ≠ []) (order : Int) :
    fixedPoint ds order true = (Numeral.fixed ds order).text := by
  unfold fixedPoint Numeral.fixed
  dsimp only
  rw [if_pos rfl]
  split_ifs with hneg hlen
  · have hne : List.replicate (-order - 1).toNat '0' ++ ds ≠ [] :=
      List.append_ne_nil_of_right_ne_nil _ h
    exact (Numeral.text_of_fraction ['0'] hne).symm
  · exact (Numeral.text_of_fraction _ (List.cons_ne_nil _ _)).symm
  · have hne : ds.drop (order.toNat + 1) ≠ [] := by
      rw [Ne, List.drop_eq_nil_iff]
      exact hlen
    exact (Numeral.text_of_fraction _ hne).symm

theorem scientific_eq_text (ds : List Char) {order : Int} (h : order ≠ 0) :
    scientific ds order = (Numeral.mk (ds.take 1) (ds.drop 1) order).text := by
  have hlen : (ds.drop 1 = []) = (ds.length ≤ 1) := propext List.drop_eq_nil_iff
  unfold scientific Numeral.text
  dsimp only
  rw [if_neg h, List.append_assoc]
  simp only [hlen]

/-- **The text of a decimal** in a record is that of its numeral. -/
theorem writeDigits_exchange (d : Digits) : Layout.exchange.writeDigits d = d.numeral.text := by
  unfold Layout.writeDigits Digits.numeral Layout.exchange
  dsimp only
  split_ifs with h
  · exact fixedPoint_eq_text (digits_ne_nil _) _
  · refine scientific_eq_text _ ?_
    omega

/-! ### Well-formed numerals -/

/-- The whole part is a numeral without a leading zero, the fraction a run of digits, and the text is
not only a whole part. -/
structure Numeral.Proper (n : Numeral) : Prop where
  whole : ∀ c ∈ n.whole, isDecimal c = true
  fraction : ∀ c ∈ n.fraction, isDecimal c = true
  nonempty : n.whole ≠ []
  leading : n.whole.length ≤ 1 ∨ n.whole.head? ≠ some '0'
  parts : n.fraction ≠ [] ∨ n.exponent ≠ 0

theorem Numeral.proper_fixed {ds : List Char} (h : ds ≠ []) (hd : ∀ c ∈ ds, isDecimal c = true)
    {order : Int} (hlead : ds.head? ≠ some '0' ∨ order ≤ 0 ∧ ds.length ≤ 1) :
    (Numeral.fixed ds order).Proper := by
  unfold Numeral.fixed
  dsimp only
  split_ifs with hneg hlen
  · refine ⟨by simp [isDecimal_of_mem_zeros (k := 1)], fun c hc => ?_, List.cons_ne_nil _ _,
      Or.inl (Nat.le_refl 1), Or.inl (List.append_ne_nil_of_right_ne_nil _ h)⟩
    rcases List.mem_append.1 hc with hc | hc
    · exact isDecimal_of_mem_zeros c hc
    · exact hd c hc
  · refine ⟨fun c hc => ?_, isDecimal_of_mem_zeros (k := 1),
      List.append_ne_nil_of_left_ne_nil h _, ?_, Or.inl (List.cons_ne_nil _ _)⟩
    · rcases List.mem_append.1 hc with hc | hc
      · exact hd c hc
      · exact isDecimal_of_mem_zeros c hc
    · rcases hlead with hlead | ⟨horder, hone⟩
      · right
        rw [List.head?_append, List.head?_eq_some_head h, Option.some_or,
          ← List.head?_eq_some_head h]
        exact hlead
      · left
        dsimp only
        rw [List.length_append, List.length_replicate]
        omega
  · refine ⟨fun c hc => hd c (List.mem_of_mem_take hc), fun c hc => hd c (List.mem_of_mem_drop hc),
      ?_, ?_, Or.inl ?_⟩
    · rw [Ne, List.take_eq_nil_iff]
      exact fun he => he.elim (Nat.succ_ne_zero _) h
    · right
      dsimp only
      rw [List.head?_take, if_neg (by omega)]
      rcases hlead with hlead | ⟨-, hone⟩
      · exact hlead
      · exact absurd (hone.trans (Nat.le_add_left 1 _)) hlen
    · rw [Ne, List.drop_eq_nil_iff]
      exact hlen

/-- The numeral of a decimal is well-formed; zero has one form only. -/
theorem Digits.proper_numeral {d : Digits} (h : d.significand = 0 → d.exponent = 0) :
    d.numeral.Proper := by
  have hd := isDecimal_of_mem_digits d.significand
  have hne := digits_ne_nil d.significand
  unfold Digits.numeral
  dsimp only
  split_ifs with hfixed
  · refine Numeral.proper_fixed hne hd ?_
    rcases Nat.eq_zero_or_pos d.significand with hzero | hpos
    · right
      rw [h hzero, hzero, digits_of_lt (by decide)]
      exact ⟨Int.le_refl 0, Nat.le_refl 1⟩
    · exact Or.inl (head?_digits hpos)
  · refine ⟨fun c hc => hd c (List.mem_of_mem_take hc), fun c hc => hd c (List.mem_of_mem_drop hc),
      ?_, Or.inl (List.length_take_le 1 _), Or.inr ?_⟩
    · rw [Ne, List.take_eq_nil_iff]
      exact fun he => he.elim (by decide) hne
    · dsimp only
      omega

/-! ### The digits that fit a word -/

/-- **Whole digits** are all taken up if their value fits a word. -/
theorem foldl_addWhole (ds : List Char) (h : ofDigits 10 ds ≤ maxWord) :
    ds.foldl Partial.addWhole ⟨0, 0⟩ = ⟨ofDigits 10 ds, 0⟩ := by
  induction ds using List.reverseRecOn with
  | nil => rfl
  | append_singleton ds c ih =>
    rw [ofDigits_concat] at h ⊢
    rw [List.foldl_append, ih (by omega)]
    exact if_pos ⟨rfl, h⟩

/-- **Fraction digits** are all taken up if the value fits a word with them. -/
theorem addFraction_of_le (fs ds : List Char) (e : Int) (h : ofDigits 10 (ds ++ fs) ≤ maxWord) :
    Partial.addFraction ⟨ofDigits 10 ds, e⟩ fs = ⟨ofDigits 10 (ds ++ fs), e - fs.length⟩ := by
  induction fs generalizing ds e with
  | nil =>
    rw [List.append_nil, List.length_nil, Int.natCast_zero, Int.sub_zero]
    rfl
  | cons c fs ih =>
    have hsplit : ds ++ c :: fs = ds ++ [c] ++ fs := List.append_cons ds c fs
    rw [hsplit] at h ⊢
    have hfits : ofDigits 10 (ds ++ [c]) ≤ maxWord := (ofDigits_le_append _ fs).trans h
    have hnext := ih (ds ++ [c]) (e - 1) h
    rw [ofDigits_concat] at hfits hnext
    rw [Partial.addFraction]
    dsimp only
    rw [if_pos hfits, hnext, List.length_cons]
    congr 1
    push_cast
    ring

theorem exponent_addFraction_le (fs : List Char) (p : Partial) :
    (p.addFraction fs).exponent ≤ p.exponent := by
  induction fs generalizing p with
  | nil => exact Int.le_refl _
  | cons c fs ih =>
    rw [Partial.addFraction]
    split
    · exact (ih _).trans (Int.sub_le_self _ (by decide))
    · exact Int.le_refl _

theorem isSome_float?_of_neg {p : Partial} (h : p.exponent < 0) : (p.float? 0).isSome = true := by
  unfold Partial.float?
  rw [if_neg (by omega)]
  split_ifs <;> rfl

theorem isSome_scaled?_of_fraction {n : Numeral} (hw : n.whole.length ≤ 16) (hf : n.fraction ≠ [])
    (he : n.exponent = 0) (negative : Bool) : (n.scaled? negative).isSome = true := by
  have hlt := ofDigits_lt n.whole
  have hpow : 10 ^ n.whole.length ≤ 10 ^ 16 := Nat.pow_le_pow_right (by decide) hw
  have hmax : 10 ^ 18 ≤ maxWord := by decide
  obtain ⟨c, fs, hcs⟩ := List.exists_cons_of_ne_nil hf
  unfold Numeral.scaled?
  dsimp only
  rw [foldl_addWhole n.whole (by omega), hcs, he]
  have hneg : (Partial.addFraction ⟨ofDigits 10 n.whole, 0⟩ (c :: fs)).exponent < 0 := by
    have hc := digit?_lt c
    rw [Partial.addFraction]
    dsimp only
    rw [if_pos (by omega)]
    exact Int.lt_of_le_of_lt (exponent_addFraction_le fs _) (Int.negSucc_lt_zero 0)
  obtain ⟨x, hx⟩ := Option.isSome_iff_exists.1 (isSome_float?_of_neg hneg)
  rw [hx]
  rfl

/-! ### Shortest decimals -/

theorem length_whole_fixed {ds : List Char} {order : Int} (h : order < 16) :
    (Numeral.fixed ds order).whole.length ≤ 16 := by
  unfold Numeral.fixed
  dsimp only
  split_ifs with hneg hlen
  · exact Nat.le_add_left 1 15
  · dsimp only
    rw [List.length_append, List.length_replicate]
    omega
  · exact (List.length_take_le _ _).trans (by omega)

theorem exponent_fixed (ds : List Char) (order : Int) : (Numeral.fixed ds order).exponent = 0 := by
  unfold Numeral.fixed
  dsimp only
  split_ifs <;> rfl

theorem significand_shortest_eq_zero {m : Nat} {p : Int} (hm : m < 2 ^ 53) (hp : -1074 ≤ p)
    (hp' : p ≤ 971) (h : (shortest m p).significand = 0) : (shortest m p).exponent = 0 := by
  rcases Nat.eq_zero_or_pos m with rfl | h0
  · rfl
  · exact absurd h (pos_shortest h0 hm hp hp').ne'

theorem significand_shortest {m : Nat} {p : Int} (hm : m < 2 ^ 53) (hp : -1074 ≤ p) (hp' : p ≤ 971) :
    (shortest m p).significand ≤ 10 ^ 17 := by
  rcases Nat.eq_zero_or_pos m with rfl | h0
  · exact Nat.zero_le _
  · exact (shortest_bounds h0 hm hp hp').1

/-- **The numeral of a shortest decimal** is in range for scaled reading. -/
theorem isSome_scaled?_shortest {m : Nat} {p : Int} (hm : m < 2 ^ 53) (hp : -1074 ≤ p)
    (hp' : p ≤ 971) (negative : Bool) :
    ((shortest m p).numeral.scaled? negative).isSome = true := by
  have hle := significand_shortest hm hp hp'
  have hmax : 10 ^ 17 ≤ maxWord := by decide
  have hproper := Digits.proper_numeral (significand_shortest_eq_zero hm hp hp')
  unfold Digits.numeral at hproper ⊢
  dsimp only at hproper ⊢
  split_ifs at hproper ⊢ with hfixed
  · have hfraction := hproper.parts.resolve_right fun h => h (exponent_fixed _ _)
    refine isSome_scaled?_of_fraction (length_whole_fixed ?_) hfraction (exponent_fixed _ _) negative
    rcases hfixed with hzero | ⟨-, horder⟩
    · rw [significand_shortest_eq_zero hm hp hp' hzero, hzero, digits_of_lt (by decide)]
      decide
    · exact horder
  · -- all digits are taken up, and the exponents add up to that of the decimal
    have h0 : 0 < m := by
      rw [Nat.pos_iff_ne_zero]
      rintro rfl
      exact hfixed (Or.inl rfl)
    generalize hd : shortest m p = d at *
    have hvalue : ofDigits 10 ((digits d.significand).take 1 ++ (digits d.significand).drop 1) =
        d.significand := by
      rw [List.take_append_drop, ofDigits_digits]
    have htake : ofDigits 10 ((digits d.significand).take 1) ≤ d.significand := by
      refine (ofDigits_le_append _ ((digits d.significand).drop 1)).trans ?_
      rw [hvalue]
    unfold Numeral.scaled?
    dsimp only
    rw [foldl_addWhole _ (by omega), addFraction_of_le _ _ 0 (by omega), hvalue]
    have hsome := float?_shortest h0 hm hp hp' (i := 0 - ((digits d.significand).drop 1).length)
      (j := d.exponent + ((digits d.significand).length - 1 : Nat)) (by
        rw [hd, List.length_drop]
        ring)
    rw [hd] at hsome
    obtain ⟨x, hx⟩ := Option.isSome_iff_exists.1 hsome
    rw [hx]
    rfl

/-! ### Finite numbers -/

theorem bounds_of_finite {x : Float} {negative : Bool} {m : Nat} {p : Int}
    (h : Shape.ofFloat x = .finite negative m p) : m < 2 ^ 53 ∧ -1074 ≤ p ∧ p ≤ 971 := by
  have hhidden : hidden = 2 ^ 52 := rfl
  have hleast : leastPower = -1074 := rfl
  have hrange : Word.range 11 = 2048 := rfl
  unfold Shape.ofFloat at h
  dsimp only at h
  have hfield : x.toBits.toNat / hidden % Word.range 11 < 2048 := Nat.mod_lt _ (by decide)
  have hfraction : x.toBits.toNat % hidden < 2 ^ 52 := Nat.mod_lt _ (by decide)
  split_ifs at h with hlast hzero hzero
  · cases h
    rw [hleast]
    omega
  · cases h
    rw [hleast]
    omega

/-- A floating point number as it is read from a record it was written to; `none` if it is not
finite. -/
def reread (x : Float) : Option Float :=
  match Shape.ofFloat x with
  | .finite negative m p => (shortest m p).numeral.scaled? negative
  | .nan | .infinite _ => none

/-- **A finite number** is read as a number. -/
theorem exists_reread {x : Float} {negative : Bool} {m : Nat} {p : Int}
    (h : Shape.ofFloat x = .finite negative m p) :
    ∃ y, (shortest m p).numeral.scaled? negative = some y ∧ reread x = some y := by
  obtain ⟨hm, hp, hp'⟩ := bounds_of_finite h
  obtain ⟨y, hy⟩ := Option.isSome_iff_exists.1 (isSome_scaled?_shortest hm hp hp' negative)
  exact ⟨y, hy, by rw [reread, h]; exact hy⟩

end SpanRelay.Decimal
