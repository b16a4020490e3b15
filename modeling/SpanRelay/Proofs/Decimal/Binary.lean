import Mathlib
import SpanRelay.Decimal.Reader

/-! # Rounding to binary floating point numbers

A positive number that has all its bits is a mantissa of 53 bits times a power of two (`Normal`). The
rounding of a product of numbers is the nearest such number (`exists_rounded`), so it is larger by one
part in `2 ^ 53` at most, and it is finite if the product is less than the first number that is rounded
to infinity (`isInf_mul`). The same holds of a whole number and of a power of ten
(`exists_normal_toFloat`, `exists_normal_power`). -/

namespace SpanRelay.Decimal

open Float.Model Float.Model.UnpackedFloat

/-! ### Shifting a mantissa -/

theorem mantissa_shiftRight (em : ExtendedMantissa) (k : ℕ) :
    (em >>> k).mantissa = em.mantissa / 2 ^ k := by
  change (Nat.repeat ExtendedMantissa.shiftRightOne k em).mantissa = _
  induction k with
  | zero => simp [Nat.repeat]
  | succ k ih =>
    rw [Nat.repeat, ExtendedMantissa.shiftRightOne]
    dsimp only
    rw [ih, Nat.div_div_eq_div_mul, pow_succ]

theorem roundBit_shiftRight (em : ExtendedMantissa) (k : ℕ) :
    (em >>> (k + 1)).roundBit = (em.mantissa / 2 ^ k % 2 != 0) := by
  have hshift := mantissa_shiftRight em k
  change (Nat.repeat ExtendedMantissa.shiftRightOne k em).mantissa = _ at hshift
  change (Nat.repeat ExtendedMantissa.shiftRightOne (k + 1) em).roundBit = _
  rw [Nat.repeat, ExtendedMantissa.shiftRightOne]
  dsimp only
  rw [hshift]

theorem le_roundedMantissa (em : ExtendedMantissa) : em.mantissa ≤ em.roundedMantissa := by
  obtain ⟨m, r, s⟩ := em
  cases r <;> cases s <;>
    simp [ExtendedMantissa.roundedMantissa, ExtendedMantissa.accuracy, Accuracy.roundToNearestEven]

theorem roundedMantissa_le (em : ExtendedMantissa) :
    em.roundedMantissa ≤ em.mantissa + em.roundBit.toNat := by
  obtain ⟨m, r, s⟩ := em
  cases r <;> cases s <;>
    simp [ExtendedMantissa.roundedMantissa, ExtendedMantissa.accuracy, Accuracy.roundToNearestEven]
  omega

/-- The rounded mantissa is the nearest number: if the exact quotient is less than half a unit above
`n`, it is at most `n`. -/
theorem roundedMantissa_shiftRight_le {m k n : ℕ} (h : 2 * m < (2 * n + 1) * 2 ^ k) :
    ((ExtendedMantissa.mk m false false) >>> k).roundedMantissa ≤ n := by
  refine (roundedMantissa_le _).trans ?_
  rw [mantissa_shiftRight]
  cases k with
  | zero =>
    change m / 2 ^ 0 + 0 ≤ n
    rw [pow_zero] at h ⊢
    omega
  | succ k =>
    rw [roundBit_shiftRight]
    dsimp only
    have hlt : m / 2 ^ k < 2 * n + 1 := by
      rw [Nat.div_lt_iff_lt_mul (Nat.two_pow_pos k)]
      rw [pow_succ] at h
      linarith
    rw [pow_succ, ← Nat.div_div_eq_div_mul]
    generalize m / 2 ^ k = q at *
    -- the first bit that is shifted out decides
    rcases Nat.mod_two_eq_zero_or_one q with hq | hq
    · rw [hq]
      change q / 2 + 0 ≤ n
      omega
    · rw [hq]
      change q / 2 + 1 ≤ n
      omega

/-! ### Rounding -/

/-- The shift that leaves 53 bits of a mantissa. -/
def excess (n : ℕ) : ℕ := n.log2 - 52

variable {n m : ℕ} {e p : ℤ}

theorem le_log2_of_pow (hn : 2 ^ 52 ≤ n) : 52 ≤ n.log2 :=
  (Nat.le_log2 (by rintro rfl; exact absurd hn (by decide))).2 hn

theorem pow_excess_le (hn : 2 ^ 52 ≤ n) : 2 ^ (52 + excess n) ≤ n := by
  have h := le_log2_of_pow hn
  rw [excess, Nat.add_sub_cancel' h]
  exact Nat.log2_self_le (by rintro rfl; exact absurd hn (by decide))

theorem lt_pow_excess (hn : 2 ^ 52 ≤ n) : n < 2 ^ (53 + excess n) := by
  have h := le_log2_of_pow hn
  rw [excess, show 53 + (n.log2 - 52) = n.log2 + 1 by omega]
  exact Nat.lt_log2_self

theorem shiftToTargetExponent_of_le (hn : 2 ^ 52 ≤ n) (he : -1074 ≤ e) :
    shiftToTargetExponent Format.binary64 n e .exact =
      ((ExtendedMantissa.mk n false false) >>> excess n, e + excess n) := by
  have hlog := le_log2_of_pow hn
  have htarget : Format.binary64.targetExponent (totalExponent n e) = e + excess n := by
    simp only [Format.targetExponent, totalExponent, Format.mantissaBits, Format.minExponent, excess]
    omega
  unfold shiftToTargetExponent shiftToExponent
  dsimp only
  rw [htarget]
  have hshift : (e + excess n - e).toNat = excess n := by omega
  rw [hshift]
  rfl

theorem excess_of_lt (hn : 2 ^ 52 ≤ n) (h : n < 2 ^ 53) : excess n = 0 := by
  have hlog : n.log2 < 53 := (Nat.log2_lt (by rintro rfl; exact absurd hn (by decide))).2 h
  unfold excess
  omega

/-- **The rounding of a mantissa** of at least 53 bits is a number of 53 bits, and of all of these the
nearest. -/
theorem exists_rounded (hn : 2 ^ 52 ≤ n) (he : -1074 ≤ e) :
    ∃ m c, ∃ hm : 0 < m, roundWithAccuracy Format.binary64 .positive n e .exact =
        .finite .positive m (e + excess n + (c : ℕ)) hm ∧ 2 ^ 52 ≤ m ∧ m < 2 ^ 53 ∧
      ∀ k, 2 * n < (2 * k + 1) * 2 ^ excess n → m * 2 ^ c ≤ k := by
  generalize hr : ((ExtendedMantissa.mk n false false) >>> excess n).roundedMantissa = r
  have hlow : 2 ^ 52 ≤ r := by
    refine le_trans ?_ (hr ▸ le_roundedMantissa _)
    rw [mantissa_shiftRight, Nat.le_div_iff_mul_le (Nat.two_pow_pos _), ← pow_add]
    exact pow_excess_le hn
  have hnearest : ∀ k, 2 * n < (2 * k + 1) * 2 ^ excess n → r ≤ k := fun k hk =>
    hr ▸ roundedMantissa_shiftRight_le hk
  have hhigh : r ≤ 2 ^ 53 := by
    refine hnearest _ ?_
    have hlt := lt_pow_excess hn
    rw [pow_add] at hlt
    have hpos := Nat.two_pow_pos (excess n)
    nlinarith
  have hround : roundWithAccuracy Format.binary64 .positive n e .exact =
      let second := shiftToTargetExponent Format.binary64 r (e + excess n) .exact
      if h : second.1.mantissa = 0 then .zero .positive
      else .finite .positive second.1.mantissa second.2 (Nat.pos_of_ne_zero h) := by
    unfold roundWithAccuracy
    rw [shiftToTargetExponent_of_le hn he]
    dsimp only
    rw [hr]
  rw [hround, shiftToTargetExponent_of_le hlow (by omega)]
  dsimp only
  rcases Nat.lt_or_eq_of_le hhigh with hlt | rfl
  · -- the rounded mantissa has 53 bits
    rw [excess_of_lt hlow hlt]
    refine ⟨r, 0, by omega, ?_, hlow, hlt, fun k hk => by simpa using hnearest k hk⟩
    have hmantissa : ((ExtendedMantissa.mk r false false) >>> 0).mantissa = r := rfl
    rw [dif_neg (by rw [hmantissa]; omega)]
    rfl
  · -- one bit more came up
    refine ⟨2 ^ 52, 1, by decide, ?_, le_refl _, by decide, fun k hk => hnearest k hk⟩
    have hexcess : excess (2 ^ 53) = 1 := by decide
    rw [hexcess]
    have hmantissa : ((ExtendedMantissa.mk (2 ^ 53) false false) >>> 1).mantissa = 2 ^ 52 := rfl
    rw [dif_neg (by rw [hmantissa]; decide)]
    rfl

theorem exists_nearest_multiple (hn : 2 ^ 52 ≤ n) : ∃ k : ℕ,
    (n : ℚ) < (k + 1 / 2) * 2 ^ excess n ∧ (k : ℚ) * 2 ^ excess n ≤ n * (1 + 1 / 2 ^ 53) := by
  refine ⟨(2 * n + 2 ^ excess n) / 2 ^ (excess n + 1), ?_, ?_⟩
  · have hdiv := Nat.lt_div_mul_add (a := 2 * n + 2 ^ excess n) (Nat.two_pow_pos (excess n + 1))
    generalize (2 * n + 2 ^ excess n) / 2 ^ (excess n + 1) = k at *
    have hk : (2 * n + 2 ^ excess n : ℚ) < k * 2 ^ (excess n + 1) + 2 ^ (excess n + 1) := by
      exact_mod_cast hdiv
    rw [pow_succ] at hk
    linarith
  · have hdiv := Nat.div_mul_le_self (2 * n + 2 ^ excess n) (2 ^ (excess n + 1))
    generalize (2 * n + 2 ^ excess n) / 2 ^ (excess n + 1) = k at *
    have hk : (k * 2 ^ (excess n + 1) : ℚ) ≤ 2 * n + 2 ^ excess n := by exact_mod_cast hdiv
    have hunit : ((2 : ℚ) ^ 52 * 2 ^ excess n) ≤ n := by
      have := pow_excess_le hn
      rw [pow_add] at this
      exact_mod_cast this
    rw [pow_succ] at hk
    linarith

theorem exists_rounded_value (hn : 2 ^ 52 ≤ n) (he : -1074 ≤ e) :
    ∃ m p, ∃ hm : 0 < m, roundWithAccuracy Format.binary64 .positive n e .exact =
        .finite .positive m p hm ∧ 2 ^ 52 ≤ m ∧ m < 2 ^ 53 ∧ e ≤ p ∧ p ≤ e + excess n + 1 ∧
      (m : ℚ) * 2 ^ p ≤ n * 2 ^ e * (1 + 1 / 2 ^ 53) ∧
      ∀ k : ℕ, (n : ℚ) * 2 ^ e < (k + 1 / 2) * 2 ^ (e + excess n) →
        (m : ℚ) * 2 ^ p ≤ k * 2 ^ (e + excess n) := by
  obtain ⟨m, c, hm, hround, hlow, hhigh, hnearest⟩ := exists_rounded hn he
  have hunit : (0 : ℚ) < 2 ^ e := by positivity
  have hsplit : (2 : ℚ) ^ (e + excess n) = 2 ^ e * 2 ^ excess n := by
    rw [zpow_add₀ two_ne_zero, zpow_natCast]
  have hvalue : (m : ℚ) * 2 ^ (e + excess n + c) = (m * 2 ^ c : ℕ) * 2 ^ (e + excess n) := by
    rw [zpow_add₀ two_ne_zero _ (c : ℤ), zpow_natCast]
    push_cast
    ring
  have hle : ∀ k : ℕ, (n : ℚ) * 2 ^ e < (k + 1 / 2) * 2 ^ (e + excess n) →
      (m : ℚ) * 2 ^ (e + excess n + c) ≤ k * 2 ^ (e + excess n) := by
    intro k hk
    rw [hvalue]
    refine mul_le_mul_of_nonneg_right ?_ (by positivity)
    rw [hsplit] at hk
    have hk' : (2 * n : ℚ) < (2 * k + 1) * 2 ^ excess n := by
      have := lt_of_mul_lt_mul_right (a := 2 ^ e) (b := (n : ℚ)) (c := (k + 1 / 2) * 2 ^ excess n)
        (by linarith) hunit.le
      linarith
    exact_mod_cast hnearest k (by exact_mod_cast hk')
  have hc : c ≤ 1 := by
    -- the rounded mantissa is not above the first number of 54 bits
    have hlt := lt_pow_excess hn
    rw [pow_add] at hlt
    have h := hnearest (2 ^ 53) (by have := Nat.two_pow_pos (excess n); nlinarith)
    by_contra hc
    have h4 : 2 ^ 2 ≤ 2 ^ c := Nat.pow_le_pow_right two_pos (by omega)
    have := Nat.mul_le_mul hlow h4
    omega
  refine ⟨m, _, hm, hround, hlow, hhigh, by omega, by omega, ?_, hle⟩
  obtain ⟨k, hlt, hle'⟩ := exists_nearest_multiple hn
  refine (hle k ?_).trans ?_ <;> rw [hsplit]
  · calc (n : ℚ) * 2 ^ e < (k + 1 / 2) * 2 ^ excess n * 2 ^ e := mul_lt_mul_of_pos_right hlt hunit
      _ = _ := by ring
  · calc (k : ℚ) * (2 ^ e * 2 ^ excess n) = k * 2 ^ excess n * 2 ^ e := by ring
      _ ≤ n * (1 + 1 / 2 ^ 53) * 2 ^ e := mul_le_mul_of_nonneg_right hle' hunit.le
      _ = _ := by ring

/-! ### Packing -/

theorem unpack_pack (hm : 0 < m) (hlow : 2 ^ 52 ≤ m) (hhigh : m < 2 ^ 53) (hp : -1074 ≤ p)
    (hp' : p ≤ 971) : (Float.Model.pack (.finite .positive m p hm)).unpack =
      .finite .positive m p hm := by
  have hlog : m.log2 + 1 = 53 := by
    have h := le_log2_of_pow hlow
    have h' : m.log2 < 53 := (Nat.log2_lt hm.ne').2 hhigh
    omega
  obtain ⟨b, hb⟩ : ∃ b : ℕ, p = b - 1075 := ⟨(p + 1075).toNat, by omega⟩
  obtain ⟨hb1, hb2⟩ : 1 ≤ b ∧ b < 2047 := by omega
  have hexp : (p + (Format.binary64.exponentBias : ℕ) +
      (Format.binary64.mantissaBitsWithoutImplicit : ℕ)).toNat = b := by
    simp only [Format.exponentBias]
    omega
  have hpack : UnpackedFloat.pack Format.binary64 (.finite .positive m p hm) =
      packComponents Format.binary64 .positive (BitVec.ofNat 11 b) (BitVec.ofNat 52 m) := by
    unfold UnpackedFloat.pack
    dsimp only
    rw [hexp, if_neg (by omega)]
    exact if_pos hlog
  have hbits : (BitVec.ofNat 11 b).toNat = b := by
    rw [BitVec.toNat_ofNat]
    omega
  have hone : BitVec.ofNat 11 b ≠ -1#11 := fun h => by
    have := congrArg BitVec.toNat h
    rw [hbits, show (-1#11).toNat = 2047 from rfl] at this
    omega
  have hzero : BitVec.ofNat 11 b ≠ 0#11 := fun h => by
    have := congrArg BitVec.toNat h
    rw [hbits, show (0#11).toNat = 0 from rfl] at this
    omega
  have hmant : (1#1 ++ BitVec.ofNat 52 m).toNat = m := by
    rw [BitVec.toNat_append, ← Nat.shiftLeft_add_eq_or_of_lt (BitVec.isLt _), BitVec.toNat_ofNat,
      Nat.shiftLeft_eq]
    change 1 * 2 ^ 52 + m % 2 ^ 52 = m
    omega
  have hunpack : (Float.Model.pack (.finite .positive m p hm)).unpack =
      UnpackedFloat.unpack Format.binary64 (UnpackedFloat.pack Format.binary64
        (.finite .positive m p hm)) := rfl
  rw [hunpack, hpack]
  unfold UnpackedFloat.unpack
  simp only [unpackExponent_packComponents, unpackMantissa_packComponents,
    hone, hzero, if_false, unpackSign_packComponents, Sign.ofBitVec_toBitVec]
  have heq : ∀ {a : ℕ} {e : ℤ} (ha : 0 < a), a = m → e = p →
      UnpackedFloat.finite .positive a e ha = .finite .positive m p hm := by
    rintro _ _ _ rfl rfl
    rfl
  refine heq _ hmant ?_
  rw [hbits, hb]
  rfl

/-- `x` is the positive number `m * 2 ^ p` and has all its bits. -/
structure Normal (x : Float) (m : ℕ) (p : ℤ) : Prop where
  unpack : ∃ hm, x.toModel.unpack = .finite .positive m p hm
  low : 2 ^ 52 ≤ m
  high : m < 2 ^ 53

/-- The first of the numbers that are rounded to infinity. -/
def overflow : ℚ := (2 ^ 54 - 1) * 2 ^ (970 : ℤ)

theorem overflow_eq : overflow = ((2 ^ 54 - 1) * 2 ^ 970 : ℕ) := by
  have h : ∀ j : ℕ, (2 ^ 54 - 1 : ℚ) * 2 ^ (j : ℤ) = ((2 ^ 54 - 1) * 2 ^ j : ℕ) := by
    intro j
    rw [zpow_natCast, show (2 : ℚ) ^ 54 - 1 = (2 ^ 54 - 1 : ℕ) by norm_num]
    norm_cast
  exact h 970

theorem exists_normal_rounded (hn : 2 ^ 52 ≤ n) (he : -1074 ≤ e) (h : (n : ℚ) * 2 ^ e < overflow) :
    ∃ m p, Normal ⟨Float.Model.pack (roundWithAccuracy Format.binary64 .positive n e .exact)⟩ m p ∧
      e ≤ p ∧ p ≤ e + excess n + 1 ∧
      (m : ℚ) * 2 ^ p ≤ n * 2 ^ e * (1 + 1 / 2 ^ 53) ∧
      ∀ k : ℕ, (n : ℚ) * 2 ^ e < (k + 1 / 2) * 2 ^ (e + excess n) →
        (m : ℚ) * 2 ^ p ≤ k * 2 ^ (e + excess n) := by
  obtain ⟨m, p, hm, hround, hlow, hhigh, hep, hpe, hvalue, hnearest⟩ := exists_rounded_value hn he
  have hp : p ≤ 971 := by
    by_contra hp
    -- then the value is at least `2 ^ 54 * 2 ^ 970`
    have hu : (0 : ℚ) < 2 ^ (970 : ℤ) := by positivity
    have hbig : (2 : ℚ) ^ 54 * 2 ^ (970 : ℤ) ≤ m * 2 ^ p := by
      have h1 : (2 : ℚ) ^ 52 ≤ m := by exact_mod_cast hlow
      have h2 : (2 : ℚ) ^ (970 : ℤ) * 4 ≤ 2 ^ p := by
        have h := zpow_le_zpow_right₀ (one_le_two (α := ℚ)) (show 970 + 2 ≤ p by omega)
        rw [zpow_add₀ two_ne_zero] at h
        linarith
      have h3 := mul_le_mul h1 h2 (by positivity) (by positivity)
      linarith
    have hsize : (2 : ℚ) ^ (52 + (e + excess n)) ≤ n * 2 ^ e := by
      have h1 : (2 : ℚ) ^ (52 + excess n) ≤ n := by exact_mod_cast pow_excess_le hn
      rw [show (52 : ℤ) + (e + excess n) = ((52 + excess n : ℕ) : ℤ) + e by push_cast; ring,
        zpow_add₀ two_ne_zero, zpow_natCast]
      exact mul_le_mul_of_nonneg_right h1 (by positivity)
    have hoverflow : overflow < 2 ^ (970 + 54 : ℤ) := by
      unfold overflow
      rw [zpow_add₀ two_ne_zero (970 : ℤ)]
      generalize (2 : ℚ) ^ (970 : ℤ) = u at hu
      linarith
    have hpos : 52 + (e + excess n) < 970 + 54 :=
      (zpow_lt_zpow_iff_right₀ one_lt_two).1 (hsize.trans_lt (h.trans hoverflow))
    -- so it was rounded up from below, but the number is too small for that
    have hunit : e + excess n = 970 + 1 := by omega
    have hlast := hnearest (2 ^ 53 - 1)
    rw [hunit, zpow_add₀ two_ne_zero] at hlast
    unfold overflow at h
    generalize (2 : ℚ) ^ (970 : ℤ) = u at *
    have := hlast (by push_cast; linarith)
    push_cast at this
    linarith
  rw [hround]
  exact ⟨m, p, ⟨⟨hm, unpack_pack hm hlow hhigh (by omega) hp⟩, hlow, hhigh⟩, hep, hpe, hvalue,
    hnearest⟩

variable {x y : Float} {k l : ℕ} {q : ℤ}

/-- **A product** that does not overflow is finite. -/
theorem isInf_mul (hx : Normal x m p) (hy : Normal y k q) (hpq : -1074 ≤ p + q)
    (h : ((m : ℚ) * 2 ^ p) * (k * 2 ^ q) < overflow) : (x * y).isInf = false := by
  obtain ⟨⟨hm, hx'⟩, hxlow, -⟩ := hx
  obtain ⟨⟨hk, hy'⟩, -, -⟩ := hy
  have hn : 2 ^ 52 ≤ m * k := hxlow.trans (Nat.le_mul_of_pos_right m hk)
  have hvalue : ((m * k : ℕ) : ℚ) * 2 ^ (p + q) < overflow := by
    rw [zpow_add₀ two_ne_zero]
    push_cast
    linarith
  obtain ⟨m', p', ⟨⟨hm', hunpack⟩, -⟩, -⟩ := exists_normal_rounded hn hpq hvalue
  have hmul : (x * y).toModel =
      Float.Model.pack (UnpackedFloat.mul Format.binary64 x.toModel.unpack y.toModel.unpack) := rfl
  change (x * y).toModel.isInf = false
  unfold Float.Model.isInf
  rw [hmul, hx', hy']
  change (Float.Model.pack (roundWithAccuracy Format.binary64 .positive (m * k) (p + q)
    .exact)).unpack.isInf = false
  rw [hunpack]
  rfl

/-! ### Whole numbers and powers of ten -/

theorem toModel_toFloat (h0 : 0 < n) (h : n < 2 ^ 64) :
    n.toUInt64.toFloat =
      ⟨Float.Model.pack (roundWithAccuracy Format.binary64 .positive (n <<< (52 - n.log2))
        (-(52 - n.log2 : ℕ)) .exact)⟩ := by
  have htoNat : n.toUInt64.toNat = n := UInt64.toNat_ofNat_of_lt' h
  have hcompare : compare (n : ℤ) 0 = .gt := compare_gt_iff_gt.2 (by omega)
  have htarget : ((0 : ℤ) - Format.binary64.targetExponent (totalExponent n 0)).toNat =
      52 - n.log2 := by
    simp only [Format.targetExponent, totalExponent, Format.mantissaBits, Format.minExponent]
    omega
  change (⟨Float.Model.pack (UnpackedFloat.normalize Format.binary64 (n.toUInt64.toNat : ℤ) 0
    .positive)⟩ : Float) = _
  rw [htoNat]
  unfold UnpackedFloat.normalize
  rw [hcompare]
  change (⟨Float.Model.pack (UnpackedFloat.round Format.binary64 .positive n 0)⟩ : Float) = _
  unfold UnpackedFloat.round decreaseExponent
  dsimp only
  rw [htarget, zero_sub]

/-- **A whole number of 64 bits** is rounded up by one part in `2 ^ 53` at most. It is not rounded if
it has 53 bits, and if it has 54 it is not rounded above an even number that is not smaller. -/
theorem exists_normal_toFloat (h0 : 0 < n) (h : n < 2 ^ 64) :
    ∃ m p, Normal n.toUInt64.toFloat m p ∧ -52 ≤ p ∧
      (m : ℚ) * 2 ^ p ≤ n * (1 + 1 / 2 ^ 53) ∧ (n < 2 ^ 53 → (m : ℚ) * 2 ^ p ≤ n) ∧
      ∀ k, 2 ^ 53 ≤ n → n < 2 ^ 54 → n ≤ 2 * k → (m : ℚ) * 2 ^ p ≤ (2 * k : ℕ) := by
  generalize hs : 52 - n.log2 = s
  have hlog : 2 ^ n.log2 ≤ n := Nat.log2_self_le h0.ne'
  have hs52 : s ≤ 52 := by omega
  have hlow : 2 ^ 52 ≤ n <<< s := by
    rw [Nat.shiftLeft_eq]
    calc 2 ^ 52 ≤ 2 ^ (n.log2 + s) := Nat.pow_le_pow_right two_pos (by omega)
      _ = 2 ^ n.log2 * 2 ^ s := pow_add _ _ _
      _ ≤ n * 2 ^ s := Nat.mul_le_mul_right _ hlog
  have hvalue : ((n <<< s : ℕ) : ℚ) * 2 ^ (-s : ℤ) = n := by
    rw [Nat.shiftLeft_eq, zpow_neg, zpow_natCast]
    push_cast
    exact mul_inv_cancel_right₀ (pow_ne_zero s two_ne_zero) _
  have hbound : (n : ℚ) < 2 ^ (64 : ℤ) := by exact_mod_cast h
  have hoverflow : ((n <<< s : ℕ) : ℚ) * 2 ^ (-s : ℤ) < overflow := by
    have hone : (1 : ℚ) ≤ 2 ^ (906 : ℤ) := one_le_zpow₀ one_le_two (by norm_num)
    rw [hvalue]
    unfold overflow
    rw [show (970 : ℤ) = 64 + 906 by norm_num, zpow_add₀ two_ne_zero]
    generalize (2 : ℚ) ^ (906 : ℤ) = u at hone
    have hpos : (0 : ℚ) < 2 ^ (64 : ℤ) := by positivity
    generalize (2 : ℚ) ^ (64 : ℤ) = v at hbound hpos
    nlinarith
  obtain ⟨m, p, hnormal, hep, -, hle, hnearest⟩ :=
    exists_normal_rounded hlow (by omega) hoverflow
  rw [← hs, ← toModel_toFloat h0 h] at hnormal
  rw [hvalue] at hle hnearest
  refine ⟨m, p, hnormal, by omega, hle, fun hn => ?_, fun k hn hn' hk => ?_⟩
  · -- nothing is shifted out
    have hlog' : n.log2 < 53 := (Nat.log2_lt h0.ne').2 hn
    have hhigh : n <<< s < 2 ^ 53 := by
      rw [Nat.shiftLeft_eq]
      calc n * 2 ^ s < 2 ^ (n.log2 + 1) * 2 ^ s :=
            Nat.mul_lt_mul_of_pos_right Nat.lt_log2_self (Nat.two_pow_pos s)
        _ = 2 ^ 53 := by rw [← pow_add]; congr 1; omega
    rw [excess_of_lt hlow hhigh, Nat.cast_zero, add_zero] at hnearest
    have hpos : (0 : ℚ) < 2 ^ (-s : ℤ) := by positivity
    refine (hnearest (n <<< s) ?_).trans hvalue.le
    calc (n : ℚ) = (n <<< s : ℕ) * 2 ^ (-s : ℤ) := hvalue.symm
      _ < _ := mul_lt_mul_of_pos_right (by linarith) hpos
  · -- one bit is shifted out
    have hlog' : n.log2 = 53 := by
      have h1 : 53 ≤ n.log2 := (Nat.le_log2 h0.ne').2 hn
      have h2 : n.log2 < 54 := (Nat.log2_lt h0.ne').2 hn'
      omega
    obtain rfl : s = 0 := by omega
    have hexcess : excess (n <<< 0) = 1 := by
      change n.log2 - 52 = 1
      omega
    rw [hexcess] at hnearest
    norm_num at hnearest
    have hk' : (n : ℚ) ≤ 2 * k := by exact_mod_cast hk
    have := hnearest k (by linarith)
    push_cast
    linarith

theorem power_of_lt {k : ℕ} (h : 22 < k) (hk : k ≤ 308) :
    power k = ⟨Float.Model.pack (roundWithAccuracy Format.binary64 .positive (2 ^ 53 * 10 ^ k) (-53)
      .exact)⟩ := by
  have hrange : ¬ ((1 : ℕ) < 2 ^ 53 ∧ k ≤ 22) := by omega
  unfold power Float.ofScientific
  rw [dif_neg hrange]
  change (⟨Float.Model.pack (UnpackedFloat.ofScientific Format.binary64 1 (k : ℤ))⟩ : Float) = _
  unfold UnpackedFloat.ofScientific
  have hmax : ¬ (k : ℤ) > 2 ^ Format.binary64.exponentBits := by
    change ¬ (k : ℤ) > 2 ^ 11
    omega
  have hmin : ¬ (k : ℤ) < -(2 ^ Format.binary64.exponentBits + (Nat.log2 1 : ℤ)) := by
    change ¬ (k : ℤ) < -(2 ^ 11 + (Nat.log2 1 : ℤ))
    omega
  rw [dif_neg one_ne_zero, if_neg hmax, if_neg hmin, if_pos (Int.natCast_nonneg k)]
  rfl

/-- Whether a power of ten has at most 53 bits and is not rounded. -/
def isExactPower (k : ℕ) : Bool :=
  match (power k).toModel.unpack with
  | .finite .positive m p _ =>
    2 ^ 52 ≤ m ∧ m < 2 ^ 53 ∧ -52 ≤ p ∧ m * 2 ^ (p + 52).toNat = 10 ^ k * 2 ^ 52
  | _ => false

theorem isExactPower_of_le {k : ℕ} (h : k ≤ 22) : isExactPower k = true := by
  have hall : ∀ k ≤ 22, isExactPower k = true := by decide +kernel
  exact hall k h

/-- **A power of ten** is rounded up by one part in `2 ^ 53` at most. -/
theorem exists_normal_power {k : ℕ} (hk : k ≤ 308) :
    ∃ m p, Normal (power k) m p ∧ -53 ≤ p ∧ (m : ℚ) * 2 ^ p ≤ 10 ^ k * (1 + 1 / 2 ^ 53) := by
  rcases Nat.lt_or_ge 22 k with h | h
  · have hlow : 2 ^ 52 ≤ 2 ^ 53 * 10 ^ k := by
      have := Nat.pow_pos (n := k) (show 0 < 10 by decide)
      omega
    have hvalue : ((2 ^ 53 * 10 ^ k : ℕ) : ℚ) * 2 ^ (-53 : ℤ) = 10 ^ k := by
      push_cast
      rw [zpow_neg]
      norm_num
      ring
    have hoverflow : (10 : ℚ) ^ k < overflow := by
      have hnat : 10 ^ k < (2 ^ 54 - 1) * 2 ^ 970 :=
        lt_of_le_of_lt (Nat.pow_le_pow_right (by decide) hk) (by decide +kernel)
      rw [overflow_eq]
      have h : ((10 ^ k : ℕ) : ℚ) < _ := Nat.cast_lt.2 hnat
      rwa [Nat.cast_pow] at h
    obtain ⟨m, p, hnormal, hep, -, hle, -⟩ :=
      exists_normal_rounded (e := -53) hlow (by norm_num) (hvalue.trans_lt hoverflow)
    rw [← power_of_lt h hk] at hnormal
    rw [hvalue] at hle
    exact ⟨m, p, hnormal, hep, hle⟩
  · have hexact := isExactPower_of_le h
    unfold isExactPower at hexact
    split at hexact
    · rename_i m p hm hunpack
      obtain ⟨hlow, hhigh, hp, hvalue⟩ := of_decide_eq_true hexact
      refine ⟨m, p, ⟨⟨hm, hunpack⟩, hlow, hhigh⟩, by omega, ?_⟩
      have hcast : (m : ℚ) * 2 ^ (p + 52) = 10 ^ k * 2 ^ 52 := by
        rw [← Int.toNat_of_nonneg (show 0 ≤ p + 52 by omega), zpow_natCast]
        exact_mod_cast hvalue
      rw [zpow_add₀ two_ne_zero] at hcast
      have hpos : (0 : ℚ) < 10 ^ k := by positivity
      have heq : (m : ℚ) * 2 ^ p = 10 ^ k := by
        have h52 : (2 : ℚ) ^ (52 : ℤ) = 2 ^ 52 := by norm_num
        rw [h52] at hcast
        linarith
      rw [heq]
      linarith
    · cases hexact

/-! ### Digits times a power of ten -/

/-- The greatest decimal of 17 digits below that of the greatest number. -/
def topDecimal : ℕ := 17976931348623156 * 10 ^ 292

theorem topDecimal_rounded : (topDecimal : ℚ) * (1 + 1 / 2 ^ 53) < overflow := by
  have hcast : ∀ a b : ℕ, a * (2 ^ 53 + 1) < b * 2 ^ 53 → (a : ℚ) * (1 + 1 / 2 ^ 53) < b := by
    intro a b h
    have h : (a : ℚ) * (2 ^ 53 + 1) < b * 2 ^ 53 := by exact_mod_cast h
    linarith
  rw [overflow_eq]
  exact hcast _ _ (by decide +kernel)

theorem round_number_rounded : (10 : ℚ) ^ 308 * (1 + 1 / 2 ^ 53) ^ 2 < overflow := by
  have hcast : ∀ k b : ℕ, 10 ^ k * (2 ^ 53 + 1) ^ 2 < b * 2 ^ 106 →
      (10 : ℚ) ^ k * (1 + 1 / 2 ^ 53) ^ 2 < b := by
    intro k b h
    have h : (10 : ℚ) ^ k * (2 ^ 53 + 1) ^ 2 < b * 2 ^ 106 := by exact_mod_cast h
    linarith
  rw [overflow_eq]
  exact hcast 308 _ (by decide +kernel)

/-- **Digits times a power of ten** are finite, if they are no more than 17 and the decimal is at most
`topDecimal`. -/
theorem isInf_toFloat_mul_power (h0 : 0 < n) (hn : n ≤ 10 ^ 17) (hk : k ≤ 308)
    (h : n * 10 ^ k ≤ topDecimal) : (n.toUInt64.toFloat * power k).isInf = false := by
  obtain ⟨m, p, hx, hp, hle, hexact, heven⟩ := exists_normal_toFloat h0 (by omega)
  obtain ⟨m', q, hy, hq, hpower⟩ := exists_normal_power hk
  refine isInf_mul hx hy (by omega) ?_
  have hx0 : (0 : ℚ) ≤ m * 2 ^ p := by positivity
  have hy0 : (0 : ℚ) ≤ m' * 2 ^ q := by positivity
  rcases Nat.lt_or_ge k 292 with hk' | hk'
  · -- the decimal is far away from the greatest number
    have h17 : (n : ℚ) ≤ 10 ^ 17 := by exact_mod_cast hn
    have h308 : (10 : ℚ) ^ (17 + k) ≤ 10 ^ 308 := pow_le_pow_right₀ (by norm_num) (by omega)
    refine lt_of_le_of_lt ?_ round_number_rounded
    calc (m : ℚ) * 2 ^ p * (m' * 2 ^ q)
        ≤ 10 ^ 17 * (1 + 1 / 2 ^ 53) * (10 ^ k * (1 + 1 / 2 ^ 53)) :=
          mul_le_mul (hle.trans (mul_le_mul_of_nonneg_right h17 (by positivity))) hpower hy0
            (by positivity)
      _ = 10 ^ (17 + k) * (1 + 1 / 2 ^ 53) ^ 2 := by rw [pow_add]; ring
      _ ≤ 10 ^ 308 * (1 + 1 / 2 ^ 53) ^ 2 := mul_le_mul_of_nonneg_right h308 (by positivity)
  · -- the digits are not rounded up beyond the bound
    obtain ⟨d, hd, hdk⟩ : ∃ d : ℕ, (m : ℚ) * 2 ^ p ≤ d ∧ d * 10 ^ k ≤ topDecimal := by
      rcases Nat.lt_or_ge n (2 ^ 53) with h53 | h53
      · exact ⟨n, hexact h53, h⟩
      · obtain ⟨j, rfl⟩ := Nat.exists_eq_add_of_le hk'
        have hj : n * 10 ^ j ≤ 17976931348623156 := by
          rw [topDecimal, pow_add, ← Nat.mul_assoc, Nat.mul_right_comm] at h
          have hpos : 0 < 10 ^ 292 := pow_pos (by decide) 292
          exact Nat.le_of_mul_le_mul_right h hpos
        obtain rfl : j = 0 := by
          by_contra hne
          have hpow : 10 ^ 1 ≤ 10 ^ j := Nat.pow_le_pow_right (by decide) (by omega)
          have := Nat.mul_le_mul h53 hpow
          omega
        rw [pow_zero, Nat.mul_one] at hj
        refine ⟨_, heven 8988465674311578 h53 (by omega) (by omega), ?_⟩
        rw [topDecimal, Nat.add_zero]
    have hdk' : (d : ℚ) * 10 ^ k ≤ topDecimal := by exact_mod_cast hdk
    refine lt_of_le_of_lt ?_ topDecimal_rounded
    calc (m : ℚ) * 2 ^ p * (m' * 2 ^ q) ≤ d * (10 ^ k * (1 + 1 / 2 ^ 53)) :=
          mul_le_mul hd hpower hy0 (by positivity)
      _ = d * 10 ^ k * (1 + 1 / 2 ^ 53) := by ring
      _ ≤ topDecimal * (1 + 1 / 2 ^ 53) := mul_le_mul_of_nonneg_right hdk' (by positivity)

end SpanRelay.Decimal
