import Mathlib.Tactic.SplitIfs
import SpanRelay.Decimal.Shortest
import SpanRelay.Proofs.Decimal.Binary

/-! # The shortest decimal of a number

`shortest` finds a decimal of 17 digits at most that lies in the interval of the number
(`exists_onGrid_shortest`): on the grid of 17 digits one of the two neighbours of the number is nearer
to it than the ends of the interval. A decimal with an exponent that is not negative is therefore read
back without leaving the finite numbers (`float?_shortest`). -/

namespace SpanRelay.Decimal

/-! ### Powers of ten with a sign -/

theorem ten_zpow_eq (i : ℤ) : (10 : ℚ) ^ i * 10 ^ (-i).toNat = 10 ^ i.toNat := by
  rcases le_or_gt 0 i with h | h
  · rw [show (-i).toNat = 0 by omega, pow_zero, mul_one, ← zpow_natCast, Int.toNat_of_nonneg h]
  · rw [show i.toNat = 0 by omega, pow_zero, ← zpow_natCast, Int.toNat_of_nonneg (by omega),
      ← zpow_add₀ (by norm_num), add_neg_cancel, zpow_zero]

theorem cast_mul_pow_le {a b : ℕ} {i : ℤ} :
    a * 10 ^ i.toNat ≤ b * 10 ^ (-i).toNat ↔ (a : ℚ) * 10 ^ i ≤ b := by
  have hpos : (0 : ℚ) < 10 ^ (-i).toNat := by positivity
  rw [← Nat.cast_le (α := ℚ)]
  push_cast
  rw [← ten_zpow_eq, ← mul_assoc, mul_le_mul_iff_left₀ hpos]

theorem ten_pow_mul_zpow (n : ℕ) (i : ℤ) : (10 : ℚ) ^ (n + 1) * 10 ^ (i - n) = 10 ^ (i + 1) := by
  rw [← zpow_natCast, ← zpow_add₀ (by norm_num)]
  congr 1
  push_cast
  ring

/-! ### The order of a number -/

theorem exists_filter_range {P : ℕ → Bool} (h : ∀ k, P (k + 1) = true → P k = true) (n : ℕ) :
    ∃ c ≤ n, (List.range n).filter P = List.range c ∧ (∀ k < c, P k = true) ∧
      (c < n → P c = false) := by
  induction n with
  | zero => exact ⟨0, le_refl _, rfl, fun k hk => absurd hk (Nat.not_lt_zero k), fun h => by omega⟩
  | succ n ih =>
    obtain ⟨c, hc, hfilter, hbelow, habove⟩ := ih
    have hdown : ∀ j k, P (k + j) = true → P k = true := by
      intro j
      induction j with
      | zero => exact fun k hk => hk
      | succ j ih => exact fun k hk => ih k (h _ hk)
    rw [List.range_succ, List.filter_append, hfilter]
    cases hP : P n with
    | true =>
      obtain rfl : c = n := by
        by_contra hne
        obtain ⟨j, rfl⟩ := Nat.exists_eq_add_of_le hc
        have := hdown j c hP
        rw [habove (by omega)] at this
        cases this
      refine ⟨c + 1, le_refl _, ?_, fun k hk => ?_, fun h => by omega⟩
      · rw [List.filter_cons_of_pos hP, List.filter_nil, List.range_succ]
      · rcases Nat.lt_succ_iff_lt_or_eq.1 hk with hk | rfl
        · exact hbelow k hk
        · exact hP
    | false =>
      refine ⟨c, by omega, ?_, hbelow, fun hlt => ?_⟩
      · rw [List.filter_cons_of_neg (by rw [hP]; decide), List.filter_nil, List.append_nil]
      · rcases Nat.lt_or_eq_of_le hc with hc | rfl
        · exact habove hc
        · exact hP

theorem Target.order_spec {t : Target} (hscale : 0 < t.scale) (hhigh : t.value < t.scale * 10 ^ 310)
    (hlow : t.scale ≤ t.value * 10 ^ 330) :
    (t.scale : ℚ) * 10 ^ t.order ≤ t.value ∧ (t.value : ℚ) < t.scale * 10 ^ (t.order + 1) := by
  unfold Target.order
  dsimp only
  split
  · rename_i hwhole
    obtain ⟨c, hc, hfilter, hbelow, habove⟩ := exists_filter_range
      (P := fun k => Nat.pow 10 (k + 1) ≤ t.value / t.scale) (fun k hk => decide_eq_true
        ((Nat.pow_le_pow_right (by decide) (by omega)).trans (of_decide_eq_true hk))) 310
    rw [hfilter, List.length_range]
    have hle : t.scale * 10 ^ c ≤ t.value := by
      rw [Nat.mul_comm, ← Nat.le_div_iff_mul_le hscale]
      cases c with
      | zero => exact hwhole
      | succ c => exact of_decide_eq_true (hbelow c (Nat.lt_succ_self c))
    have hlt : t.value < t.scale * 10 ^ (c + 1) := by
      rcases Nat.lt_or_eq_of_le hc with hc | rfl
      · have hnot := of_decide_eq_false (habove hc)
        rw [Nat.mul_comm, ← Nat.div_lt_iff_lt_mul hscale]
        exact Nat.lt_of_not_le hnot
      · exact absurd hle (by omega)
    constructor
    · rw [zpow_natCast]
      exact_mod_cast hle
    · rw [show ((c : ℤ) + 1) = ((c + 1 : ℕ) : ℤ) by push_cast; rfl, zpow_natCast]
      exact_mod_cast hlt
  · rename_i hwhole
    have hless : t.value < t.scale := by
      rw [Nat.pos_iff_ne_zero, not_not, Nat.div_eq_zero_iff] at hwhole
      omega
    obtain ⟨c, hc, hfilter, hbelow, habove⟩ := exists_filter_range
      (P := fun k => t.value * Nat.pow 10 (k + 1) < t.scale) (fun k hk => decide_eq_true
        (lt_of_le_of_lt (Nat.mul_le_mul_left _ (Nat.pow_le_pow_right (by decide) (by omega)))
          (of_decide_eq_true hk))) 330
    rw [hfilter, List.length_range]
    have hlt : t.value * 10 ^ c < t.scale := by
      cases c with
      | zero => rwa [pow_zero, Nat.mul_one]
      | succ c => exact of_decide_eq_true (hbelow c (Nat.lt_succ_self c))
    have hle : t.scale ≤ t.value * 10 ^ (c + 1) := by
      rcases Nat.lt_or_eq_of_le hc with hc | rfl
      · exact Nat.le_of_not_lt (of_decide_eq_false (habove hc))
      · exact absurd hlt (by omega)
    constructor
    · rw [zpow_neg, zpow_natCast, ← div_eq_mul_inv, div_le_iff₀ (by positivity)]
      exact_mod_cast hle
    · rw [show -((c + 1 : ℕ) : ℤ) + 1 = -(c : ℤ) by push_cast; ring, zpow_neg, zpow_natCast,
        ← div_eq_mul_inv, lt_div_iff₀ (by positivity)]
      exact_mod_cast hlt

/-! ### Points of a grid -/

theorem Target.le_high_of_holds {t : Target} {e : ℤ} {n : ℕ} (h : t.holds e n = true) :
    (n : ℚ) * t.scale * 10 ^ e ≤ t.high := by
  have hle : n * t.scale * 10 ^ e.toNat ≤ t.high * 10 ^ (-e).toNat := by
    unfold Target.holds at h
    rw [Nat.mul_right_comm]
    split at h
    · exact of_decide_eq_true (Bool.and_eq_true_iff.1 h).2
    · exact (of_decide_eq_true (Bool.and_eq_true_iff.1 h).2).le
  have hcast := cast_mul_pow_le.1 hle
  push_cast at hcast
  exact hcast

theorem Target.holds_of_lt {t : Target} {e : ℤ} {n : ℕ}
    (hlow : t.low * 10 ^ (-e).toNat < n * (t.scale * 10 ^ e.toNat))
    (hhigh : n * (t.scale * 10 ^ e.toNat) < t.high * 10 ^ (-e).toNat) : t.holds e n = true := by
  have hpoint : n * (t.scale * 10 ^ e.toNat) = n * Nat.pow 10 e.toNat * t.scale := by
    rw [Nat.mul_comm t.scale, ← Nat.mul_assoc]
    rfl
  rw [hpoint] at hlow hhigh
  unfold Target.holds
  dsimp only
  split
  · exact Bool.and_eq_true_iff.2 ⟨decide_eq_true hlow.le, decide_eq_true hhigh.le⟩
  · exact Bool.and_eq_true_iff.2 ⟨decide_eq_true hlow, decide_eq_true hhigh⟩

/-- What is found on a grid lies in the interval and is no more than one step above the number. -/
theorem Target.of_onGrid? {t : Target} {e : ℤ} {d : Digits} (h : t.onGrid? e = some d) :
    d.exponent = e ∧ (d.significand : ℚ) * t.scale * 10 ^ e ≤ t.high ∧
      ((d.significand : ℚ) - 1) * t.scale * 10 ^ e ≤ t.value := by
  have hfloor : ((t.value * Nat.pow 10 (-e).toNat / (t.scale * Nat.pow 10 e.toNat) : ℕ) : ℚ) *
      t.scale * 10 ^ e ≤ t.value := by
    have hle := Nat.div_mul_le_self (t.value * Nat.pow 10 (-e).toNat) (t.scale * Nat.pow 10 e.toNat)
    rw [← Nat.mul_assoc] at hle
    have hcast := cast_mul_pow_le.1 hle
    push_cast at hcast ⊢
    exact hcast
  unfold Target.onGrid? at h
  dsimp only at h
  generalize t.value * Nat.pow 10 (-e).toNat / (t.scale * Nat.pow 10 e.toNat) = n at h hfloor
  have hpoint : ∀ c, t.holds e c = true → c ≤ n + 1 →
      (c : ℚ) * t.scale * 10 ^ e ≤ t.high ∧ ((c : ℚ) - 1) * t.scale * 10 ^ e ≤ t.value := by
    intro c hc hle
    refine ⟨Target.le_high_of_holds hc, le_trans ?_ hfloor⟩
    have hle : (c : ℚ) ≤ n + 1 := by exact_mod_cast hle
    rw [mul_assoc, mul_assoc]
    exact mul_le_mul_of_nonneg_right (by linarith) (by positivity)
  split at h
  · rename_i hdown hup
    cases h
    refine ⟨rfl, hpoint _ ?_ ?_⟩
    · split_ifs <;> assumption
    · dsimp only
      split_ifs <;> omega
  · rename_i hdown hup
    cases h
    exact ⟨rfl, hpoint n hdown (Nat.le_succ n)⟩
  · rename_i hdown hup
    cases h
    exact ⟨rfl, hpoint (n + 1) hup (le_refl _)⟩
  · cases h

theorem Target.pos_of_holds {t : Target} (hlow : 0 < t.low) {e : ℤ} {n : ℕ}
    (h : t.holds e n = true) : 0 < n := by
  have hdown : 0 < t.low * Nat.pow 10 (-e).toNat := Nat.mul_pos hlow (Nat.pow_pos (by decide))
  have hle : t.low * Nat.pow 10 (-e).toNat ≤ n * Nat.pow 10 e.toNat * t.scale := by
    unfold Target.holds at h
    dsimp only at h
    split at h
    · exact of_decide_eq_true (Bool.and_eq_true_iff.1 h).1
    · exact (of_decide_eq_true (Bool.and_eq_true_iff.1 h).1).le
  rw [Nat.pos_iff_ne_zero]
  rintro rfl
  rw [Nat.zero_mul, Nat.zero_mul] at hle
  omega

theorem Target.pos_of_onGrid? {t : Target} (hlow : 0 < t.low) {e : ℤ} {d : Digits}
    (h : t.onGrid? e = some d) : 0 < d.significand := by
  unfold Target.onGrid? at h
  dsimp only at h
  split at h
  · rename_i hdown hup
    cases h
    refine Target.pos_of_holds hlow (e := e) ?_
    split_ifs <;> assumption
  · rename_i hdown hup
    cases h
    exact Target.pos_of_holds hlow hdown
  · cases h
    exact Nat.succ_pos _
  · cases h

/-- **A grid that is fine enough** has a point in the interval: one of the neighbours of the number is
nearer to it than both ends are. -/
theorem Target.exists_onGrid? {t : Target} {e : ℤ} {gap : ℕ} (hscale : 0 < t.scale)
    (hlow : t.low + gap ≤ t.value) (hhigh : t.value + gap ≤ t.high)
    (hgap : (t.scale : ℚ) * 10 ^ e < 2 * gap) : ∃ d, t.onGrid? e = some d := by
  have hstep : t.scale * 10 ^ e.toNat < 2 * gap * 10 ^ (-e).toNat := by
    rw [← not_le]
    intro hle
    have hle' : 2 * gap * 10 ^ (-e).toNat ≤ t.scale * 10 ^ e.toNat := hle
    have hneg := cast_mul_pow_le (a := 2 * gap) (b := t.scale) (i := -e)
    rw [neg_neg] at hneg
    have h := hneg.1 hle'
    rw [zpow_neg, ← div_eq_mul_inv, div_le_iff₀ (by positivity)] at h
    push_cast at h
    linarith
  have hb : 0 < t.scale * 10 ^ e.toNat := by positivity
  have hdown : 0 < 10 ^ (-e).toNat := by positivity
  have hsplit := Nat.div_add_mod (t.value * 10 ^ (-e).toNat) (t.scale * 10 ^ e.toNat)
  have hmod := Nat.mod_lt (t.value * 10 ^ (-e).toNat) hb
  have hlow' := Nat.mul_le_mul_right (10 ^ (-e).toNat) hlow
  have hhigh' := Nat.mul_le_mul_right (10 ^ (-e).toNat) hhigh
  rw [Nat.add_mul] at hlow' hhigh'
  rw [Nat.mul_assoc] at hstep
  rw [Nat.mul_comm] at hsplit
  have hone : t.holds e (t.value * 10 ^ (-e).toNat / (t.scale * 10 ^ e.toNat)) = true ∨
      t.holds e (t.value * 10 ^ (-e).toNat / (t.scale * 10 ^ e.toNat) + 1) = true := by
    rcases Nat.lt_or_ge (t.value * 10 ^ (-e).toNat % (t.scale * 10 ^ e.toNat))
      (gap * 10 ^ (-e).toNat) with h | h
    · exact Or.inl (Target.holds_of_lt (by omega) (by omega))
    · refine Or.inr (Target.holds_of_lt ?_ ?_) <;> rw [Nat.add_mul, Nat.one_mul] <;> omega
  unfold Target.onGrid?
  dsimp only
  rcases hone with h | h
  · have h : t.holds e (t.value * Nat.pow 10 (-e).toNat / (t.scale * Nat.pow 10 e.toNat)) = true := h
    rw [h]
    split <;> simp_all
  · have h : t.holds e (t.value * Nat.pow 10 (-e).toNat / (t.scale * Nat.pow 10 e.toNat) + 1) = true :=
      h
    rw [h]
    split <;> simp_all

/-! ### Values of decimals -/

/-- The value of a decimal. -/
def Digits.value (d : Digits) : ℚ := d.significand * 10 ^ d.exponent

theorem Digits.trimmed_spec : ∀ (fuel : ℕ) (d : Digits), (d.trimmed fuel).value = d.value ∧
    (d.trimmed fuel).significand ≤ d.significand
  | 0, _ => ⟨rfl, le_refl _⟩
  | fuel + 1, d => by
    unfold Digits.trimmed
    split
    · rename_i h
      obtain ⟨hvalue, hle⟩ := Digits.trimmed_spec fuel ⟨d.significand / 10, d.exponent + 1⟩
      refine ⟨hvalue.trans ?_, hle.trans (Nat.div_le_self _ _)⟩
      have hten : (d.significand : ℚ) = (d.significand / 10 : ℕ) * 10 := by
        exact_mod_cast (Nat.div_mul_cancel (Nat.dvd_of_mod_eq_zero h.2)).symm
      unfold Digits.value
      dsimp only
      rw [hten, zpow_add_one₀ (by norm_num)]
      ring
    · exact ⟨rfl, le_refl _⟩

theorem Digits.value_pos {d : Digits} : 0 < d.value ↔ 0 < d.significand := by
  rw [Digits.value, mul_pos_iff_of_pos_right (by positivity), Nat.cast_pos]

section Grid

variable {t : Target} {d : Digits} {n : ℕ} (hscale : 0 < t.scale)
include hscale

theorem Target.significand_le (horder : (t.value : ℚ) < t.scale * 10 ^ (t.order + 1))
    (hd : t.onGrid? (t.order - (n : ℕ)) = some d) : d.significand ≤ 10 ^ (n + 1) := by
  obtain ⟨-, -, hstep⟩ := Target.of_onGrid? hd
  have hscale' : (0 : ℚ) < t.scale := by exact_mod_cast hscale
  have hten : (0 : ℚ) < 10 ^ (t.order - (n : ℤ)) := by positivity
  rw [← ten_pow_mul_zpow n] at horder
  have hlt : ((d.significand : ℚ) - 1) * 10 ^ (t.order - (n : ℤ)) <
      10 ^ (n + 1) * 10 ^ (t.order - (n : ℤ)) := by
    refine lt_of_mul_lt_mul_right (a := (t.scale : ℚ)) ?_ hscale'.le
    linarith
  have hlt' : (d.significand : ℚ) < (10 ^ (n + 1) + 1 : ℕ) := by
    have := lt_of_mul_lt_mul_right hlt hten.le
    push_cast
    linarith
  exact Nat.lt_succ_iff.1 (Nat.cast_lt.1 hlt')

theorem Target.value_le_of_order_lt (horder : (t.value : ℚ) < t.scale * 10 ^ (t.order + 1))
    (hd : t.onGrid? (t.order - (n : ℕ)) = some d) (hsmall : t.order < 308) :
    d.value ≤ topDecimal := by
  have hdigits : (d.significand : ℚ) ≤ 10 ^ (n + 1) := by
    exact_mod_cast Target.significand_le hscale horder hd
  have htop : ∀ k : ℕ, 10 ^ k ≤ topDecimal → ((10 : ℚ) ^ (k : ℤ)) ≤ topDecimal := by
    intro k hk
    rw [zpow_natCast]
    exact_mod_cast hk
  have hexp := (Target.of_onGrid? hd).1
  calc d.value ≤ 10 ^ (n + 1) * 10 ^ d.exponent :=
        mul_le_mul_of_nonneg_right hdigits (by positivity)
    _ = 10 ^ (t.order + 1) := by rw [hexp, ten_pow_mul_zpow]
    _ ≤ 10 ^ ((308 : ℕ) : ℤ) := zpow_le_zpow_right₀ (by norm_num) (by omega)
    _ ≤ topDecimal := htop 308 (by decide +kernel)

/-- A multiple of `10 ^ 292` that is not above the end of the last interval but one: `topDecimal` is
the last such multiple. -/
theorem Target.value_le_of_exponent_le {e : ℤ} (hend : t.high ≤ (2 ^ 54 - 3) * 2 ^ 970 * t.scale)
    (hd : t.onGrid? e = some d) (hlarge : 292 ≤ d.exponent) : d.value ≤ topDecimal := by
  obtain ⟨hexp, hhigh, -⟩ := Target.of_onGrid? hd
  rw [← hexp] at hhigh
  obtain ⟨j, hj⟩ : ∃ j : ℕ, d.exponent = (j + 292 : ℕ) := ⟨(d.exponent - 292).toNat, by omega⟩
  unfold Digits.value
  rw [hj, zpow_natCast] at hhigh ⊢
  have hbound : d.significand * 10 ^ (j + 292) ≤ (2 ^ 54 - 3) * 2 ^ 970 := by
    have hle : d.significand * t.scale * 10 ^ (j + 292) ≤ (2 ^ 54 - 3) * 2 ^ 970 * t.scale := by
      refine le_trans ?_ hend
      exact_mod_cast hhigh
    refine Nat.le_of_mul_le_mul_right (c := t.scale) ?_ hscale
    rwa [Nat.mul_right_comm]
  rw [pow_add, ← Nat.mul_assoc] at hbound
  have htop : d.significand * 10 ^ j ≤ 17976931348623156 := by
    by_contra hgt
    have hlarger : (2 ^ 54 - 3) * 2 ^ 970 < 17976931348623157 * 10 ^ 292 := by decide +kernel
    have hnext : 17976931348623157 ≤ d.significand * 10 ^ j := Nat.lt_of_not_le hgt
    exact absurd (hlarger.trans_le ((Nat.mul_le_mul_right _ hnext).trans hbound)) (lt_irrefl _)
  have hnat : d.significand * 10 ^ j * 10 ^ 292 ≤ topDecimal := Nat.mul_le_mul_right _ htop
  have hcast := (Nat.cast_le (α := ℚ)).2 hnat
  rwa [Nat.cast_mul, Nat.cast_mul, Nat.cast_pow, Nat.cast_pow, mul_assoc, ← pow_add] at hcast

end Grid

/-! ### The shortest decimal -/

section Finite

variable {m : ℕ} {p : ℤ} (h0 : 0 < m) (hm : m < 2 ^ 53)
include h0 hm

theorem Target.of_spec (hp : -1074 ≤ p) (hp' : p ≤ 971) :
    let t := Target.of m p
    0 < t.scale ∧ (∃ gap, t.low + gap ≤ t.value ∧ t.value + gap ≤ t.high ∧
      t.value ≤ 2 ^ 54 * gap) ∧ t.value < t.scale * 10 ^ 310 ∧ t.scale ≤ t.value * 10 ^ 330 := by
  intro t
  have hscale : 0 < t.scale := Nat.two_pow_pos _
  have hvalue : t.value = 4 * m * 2 ^ (p - 2).toNat := rfl
  have hunit : 0 < 2 ^ (p - 2).toNat := Nat.two_pow_pos _
  refine ⟨hscale, ⟨(if m = hidden ∧ leastPower < p then 1 else 2) * 2 ^ (p - 2).toNat, ?_, ?_, ?_⟩,
    ?_, ?_⟩
  · change (4 * m - _) * 2 ^ (p - 2).toNat + _ ≤ 4 * m * 2 ^ (p - 2).toNat
    rw [← Nat.add_mul]
    exact Nat.mul_le_mul_right _ (by split_ifs <;> omega)
  · change 4 * m * 2 ^ (p - 2).toNat + _ ≤ (4 * m + 2) * 2 ^ (p - 2).toNat
    rw [← Nat.add_mul]
    exact Nat.mul_le_mul_right _ (by split_ifs <;> omega)
  · rw [hvalue, ← Nat.mul_assoc]
    refine Nat.mul_le_mul_right _ ?_
    split_ifs with hpower
    · rw [hpower.1]
      decide
    · omega
  · have hpow : 2 ^ (p - 2).toNat ≤ 2 ^ 969 := pow_le_pow_right₀ one_le_two (by omega)
    calc t.value = 4 * m * 2 ^ (p - 2).toNat := hvalue
      _ < 2 ^ 55 * 2 ^ (p - 2).toNat := Nat.mul_lt_mul_of_pos_right (by omega) hunit
      _ ≤ 2 ^ 55 * 2 ^ 969 := Nat.mul_le_mul_left _ hpow
      _ ≤ 10 ^ 310 := by decide +kernel
      _ ≤ t.scale * 10 ^ 310 := Nat.le_mul_of_pos_left _ hscale
  · have hpow : 2 ^ (2 - p).toNat ≤ 2 ^ 1076 := pow_le_pow_right₀ one_le_two (by omega)
    have hvalue0 : 0 < t.value := by
      rw [hvalue]
      exact Nat.mul_pos (by omega) hunit
    calc t.scale = 2 ^ (2 - p).toNat := rfl
      _ ≤ 2 ^ 1076 := hpow
      _ ≤ 10 ^ 330 := by decide +kernel
      _ ≤ t.value * 10 ^ 330 := Nat.le_mul_of_pos_left _ hvalue0

/-- **The shortest decimal** is found on a grid of at most 17 digits. -/
theorem exists_onGrid_shortest (hp : -1074 ≤ p) (hp' : p ≤ 971) : ∃ n < 17, ∃ d,
    (Target.of m p).onGrid? ((Target.of m p).order - (n : ℕ)) = some d ∧
      shortest m p = d.trimmed 20 := by
  obtain ⟨hscale, ⟨gap, hlow, hhigh, hgap⟩, hbelow, habove⟩ := Target.of_spec h0 hm hp hp'
  obtain ⟨horder, -⟩ := Target.order_spec hscale hbelow habove
  have hhit : ∃ d, (Target.of m p).onGrid? ((Target.of m p).order - (16 : ℕ)) = some d := by
    refine Target.exists_onGrid? hscale hlow hhigh ?_
    have hgap : ((Target.of m p).value : ℚ) ≤ 2 ^ 54 * gap := by exact_mod_cast hgap
    have hscale : (0 : ℚ) < (Target.of m p).scale := by exact_mod_cast hscale
    have hpos : (0 : ℚ) < (Target.of m p).scale * 10 ^ (Target.of m p).order := by positivity
    rw [zpow_sub₀ (by norm_num), zpow_natCast, ← mul_div_assoc, div_lt_iff₀ (by norm_num)]
    norm_num at hgap ⊢
    linarith
  unfold shortest
  rw [if_neg (by omega)]
  dsimp only
  cases hfind : (List.range 17).findSome? fun n : ℕ =>
      (Target.of m p).onGrid? ((Target.of m p).order - n) with
  | none =>
    obtain ⟨d, hd⟩ := hhit
    rw [List.findSome?_eq_none_iff] at hfind
    have := hfind 16 (by decide)
    rw [hd] at this
    cases this
  | some d =>
    obtain ⟨n, hn, hd⟩ := List.exists_of_findSome?_eq_some hfind
    exact ⟨n, List.mem_range.1 hn, d, hd, rfl⟩

theorem pos_shortest (hp : -1074 ≤ p) (hp' : p ≤ 971) : 0 < (shortest m p).significand := by
  obtain ⟨n, -, d, hd, hshort⟩ := exists_onGrid_shortest h0 hm hp hp'
  have hlow : 0 < (Target.of m p).low := by
    refine Nat.mul_pos ?_ (Nat.two_pow_pos _)
    split_ifs <;> omega
  rw [hshort, ← Digits.value_pos, (d.trimmed_spec 20).1, Digits.value_pos]
  exact Target.pos_of_onGrid? hlow hd

theorem Target.high_le (hp' : p ≤ 971) (hmax : m ≠ 2 ^ 53 - 1 ∨ p ≠ 971) :
    (Target.of m p).high ≤ (2 ^ 54 - 3) * 2 ^ 970 * (Target.of m p).scale := by
  have hscale : 0 < (Target.of m p).scale := Nat.two_pow_pos _
  refine le_trans ?_ (Nat.le_mul_of_pos_right _ hscale)
  change (4 * m + 2) * 2 ^ (p - 2).toNat ≤ _
  have hsplit : (2 ^ 54 - 3) * 2 ^ 970 = (2 ^ 55 - 6) * 2 ^ 969 := by decide +kernel
  have hsplit' : (2 ^ 55 - 6) * 2 ^ 969 = (2 ^ 56 - 12) * 2 ^ 968 := by decide +kernel
  rw [hsplit]
  rcases eq_or_ne p 971 with rfl | hne
  · rw [show ((971 : ℤ) - 2).toNat = 969 from rfl]
    exact Nat.mul_le_mul_right _ (by omega)
  · rw [hsplit']
    have hpow : 2 ^ (p - 2).toNat ≤ 2 ^ 968 := pow_le_pow_right₀ one_le_two (by omega)
    exact Nat.mul_le_mul (by omega) hpow

/-- **A shortest decimal** has 17 digits at most. If it has no fraction, it is at most `topDecimal`,
unless it is that of the greatest number. -/
theorem shortest_bounds (hp : -1074 ≤ p) (hp' : p ≤ 971) :
    (shortest m p).significand ≤ 10 ^ 17 ∧ (0 ≤ (shortest m p).exponent →
      (m ≠ 2 ^ 53 - 1 ∨ p ≠ 971) →
      (shortest m p).significand * 10 ^ (shortest m p).exponent.toNat ≤ topDecimal) := by
  obtain ⟨hscale, -, hbelow, habove⟩ := Target.of_spec h0 hm hp hp'
  obtain ⟨-, horder⟩ := Target.order_spec hscale hbelow habove
  obtain ⟨n, hn, d, hd, hshort⟩ := exists_onGrid_shortest h0 hm hp hp'
  obtain ⟨hvalue, hle⟩ := d.trimmed_spec 20
  have hdigits := Target.significand_le hscale horder hd
  rw [hshort]
  refine ⟨hle.trans (hdigits.trans (Nat.pow_le_pow_right (by decide) (by omega))), fun he hmax => ?_⟩
  have hcast : (((d.trimmed 20).significand * 10 ^ (d.trimmed 20).exponent.toNat : ℕ) : ℚ) =
      d.value := by
    rw [← hvalue, Digits.value, ← Int.toNat_of_nonneg he, zpow_natCast, Int.toNat_natCast]
    push_cast
    rfl
  rw [← Nat.cast_le (α := ℚ), hcast]
  rcases lt_or_ge (Target.of m p).order 308 with hsmall | hlarge
  · exact Target.value_le_of_order_lt hscale horder hd hsmall
  · have hexp : 292 ≤ d.exponent := by
      rw [(Target.of_onGrid? hd).1]
      omega
    exact Target.value_le_of_exponent_le hscale (Target.high_le h0 hm hp' hmax) hd hexp

/-- **The shortest decimal of a finite number** is read back without leaving the finite numbers, however
its exponent is divided between its digits and what is written after them. -/
theorem float?_shortest (hp : -1074 ≤ p) (hp' : p ≤ 971) {i j : ℤ}
    (he : i + j = (shortest m p).exponent) :
    (Partial.float? ⟨(shortest m p).significand, i⟩ j).isSome = true := by
  obtain ⟨hdigits, htop⟩ := shortest_bounds h0 hm hp hp'
  generalize hd : shortest m p = d at *
  unfold Partial.float?
  dsimp only
  rw [he]
  split
  · rename_i hnonneg
    split
    · rfl
    rename_i hzero
    have hpos : 0 < d.significand := by
      rw [Nat.pos_iff_ne_zero]
      intro h
      rw [h] at hzero
      exact hzero (by decide +kernel)
    by_cases hmax : m = 2 ^ 53 - 1 ∧ p = 971
    · obtain ⟨rfl, rfl⟩ := hmax
      obtain rfl : d = ⟨17976931348623157, 292⟩ := by
        rw [← hd]
        decide +kernel
      decide +kernel
    have htop := htop hnonneg (not_and_or.1 hmax)
    have hexp : d.exponent.toNat ≤ 308 := by
      by_contra hlarge
      have hpow : 10 ^ 309 ≤ 10 ^ d.exponent.toNat := pow_le_pow_right₀ (by decide) (by omega)
      have hbig : topDecimal < 10 ^ 309 := by decide +kernel
      have := hpow.trans ((Nat.le_mul_of_pos_left _ hpos).trans htop)
      exact absurd (hbig.trans_le this) (lt_irrefl _)
    rw [if_neg (by omega), show d.exponent.natAbs = d.exponent.toNat by omega,
      isInf_toFloat_mul_power hpos hdigits hexp htop]
    rfl
  · split_ifs <;> rfl

end Finite

end SpanRelay.Decimal
