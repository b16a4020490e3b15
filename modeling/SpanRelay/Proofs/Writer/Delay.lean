import Mathlib.Logic.Function.Iterate
import Mathlib.Tactic.Ring
import SpanRelay.Proofs.Writer.Fates

/-! # The law of the delay

An answer has one of three `Upshot`s for the delay: it is increased while documents are left to be sent
again, decreased once nothing is left, and kept if the request is refused for good (`backoff_settle`).
Doubling and halving do not undo each other: what is halved need not be a doubled minimum any more. What
holds along every sequence of answers is the `DelayLaw`, which is put together from the repeated increase
of a delay that is off (`current_iterate_increase`) and the repeated decrease of any delay
(`current_iterate_decrease_mul_le`), see `delayLaw_scanl`. -/

namespace SpanRelay

/-- What an answer means for the delay. -/
inductive Upshot
  /-- Some documents are left that may be sent again. -/
  | again
  /-- The store has dealt with the documents, and none is to be sent again. -/
  | done
  /-- The request failed, and it is not worth a repetition. -/
  | refused
deriving DecidableEq, Repr

/-- How the delays before the requests follow from the upshots of the answers: `delays` starts with the
delay at first and goes on with the one after each answer. -/
structure DelayLaw (low high : Nat) (upshots : List Upshot) (delays : List Nat) : Prop where
  length : delays.length = upshots.length + 1
  bounds : ∀ delay ∈ delays, delay = 0 ∨ low ≤ delay ∧ delay ≤ high
  /-- From zero, `k` failures in a row double the minimum `k - 1` times, up to the maximum. -/
  failures : ∀ n k, 1 ≤ k → delays[n]? = some 0 →
    (∀ i < k, upshots[n + i]? = some .again) →
    delays[n + k]? = some (min (low * 2 ^ (k - 1)) high)
  /-- A success makes a delay smaller. -/
  success : ∀ n delay, upshots[n]? = some .done → delays[n]? = some delay → delay ≠ 0 →
    ∃ smaller < delay, delays[n + 1]? = some smaller
  /-- Enough successes in a row bring every delay to zero. -/
  successes : ∀ n k, high < low * 2 ^ k → (∀ i < k, upshots[n + i]? = some .done) →
    delays[n + k]? = some 0
  refusal : ∀ n, upshots[n]? = some .refused → delays[n + 1]? = delays[n]?
  /-- There is no delay without a minimum. -/
  off : low = 0 → ∀ delay ∈ delays, delay = 0

theorem min_double (n cap : Nat) : min (2 * min n cap) cap = min (2 * n) cap := by omega

namespace Backoff

variable {b : Backoff}

/-- The delay after an answer. -/
def after (b : Backoff) : Upshot → Backoff
  | .again => b.increase
  | .done => b.decrease
  | .refused => b

@[simp] theorem min_after (b : Backoff) (u : Upshot) : (b.after u).min = b.min := by
  cases u <;> rfl

@[simp] theorem max_after (b : Backoff) (u : Upshot) : (b.after u).max = b.max := by
  cases u <;> rfl

/-! ### Bounds -/

/-- A delay that is off or within its bounds. -/
structure Bounded (b : Backoff) : Prop where
  min_le_max : b.min ≤ b.max
  current : b.current = 0 ∨ b.min ≤ b.current ∧ b.current ≤ b.max
  off : b.min = 0 → b.current = 0

theorem bounded_of_off (hle : b.min ≤ b.max) (h0 : b.current = 0) : b.Bounded :=
  ⟨hle, Or.inl h0, fun _ => h0⟩

theorem Bounded.increase (h : b.Bounded) : b.increase.Bounded := by
  obtain ⟨hle, hcur, hoff⟩ := h
  refine ⟨hle, Or.inr ?_, fun hmin => ?_⟩
  · dsimp only [Backoff.increase]
    split
    · exact ⟨Nat.le_refl _, hle⟩
    · rename_i hpos
      have hwithin := hcur.resolve_left hpos
      exact ⟨Nat.le_min.2 ⟨by omega, hle⟩, Nat.min_le_right _ _⟩
  · dsimp only [Backoff.increase]
    rw [if_pos (hoff hmin)]
    exact hmin

theorem Bounded.decrease (h : b.Bounded) : b.decrease.Bounded := by
  obtain ⟨hle, hcur, hoff⟩ := h
  refine ⟨hle, ?_, fun hmin => ?_⟩
  · dsimp only [Backoff.decrease]
    split
    · exact Or.inl rfl
    · exact Or.inr ⟨by omega, by omega⟩
  · dsimp only [Backoff.decrease]
    rw [hoff hmin]
    exact ite_self _

theorem Bounded.after (h : b.Bounded) (u : Upshot) : (b.after u).Bounded := by
  cases u with
  | again => exact h.increase
  | done => exact h.decrease
  | refused => exact h

/-! ### Failures and successes in a row -/

/-- **Failures in a row** double the minimum up to the maximum. -/
theorem current_iterate_increase (hle : b.min ≤ b.max) (h0 : b.current = 0) (k : Nat) :
    (increase^[k + 1] b).current = Nat.min (b.min * 2 ^ k) b.max := by
  have hbounds : ∀ n, (increase^[n] b).min = b.min ∧ (increase^[n] b).max = b.max := by
    intro n
    induction n with
    | zero => exact ⟨rfl, rfl⟩
    | succ n ih =>
      rw [Function.iterate_succ_apply']
      exact ih
  induction k with
  | zero =>
    have hfirst : b.increase.current = b.min := if_pos h0
    rw [Function.iterate_one, hfirst, Nat.pow_zero, Nat.mul_one]
    exact (Nat.min_eq_left hle).symm
  | succ k ih =>
    obtain ⟨hmin, hmax⟩ := hbounds (k + 1)
    have hpow : b.min * 2 ^ (k + 1) = 2 * (b.min * 2 ^ k) := by rw [Nat.pow_succ]; ring
    rw [Function.iterate_succ_apply', Backoff.increase, ih, hmin, hmax, hpow]
    dsimp only
    split
    · rename_i hzero
      -- the delay stays off only without a minimum
      have hnone : b.min = 0 := by
        rcases Nat.min_eq_zero_iff.1 hzero with hprod | hmax0
        · exact (Nat.mul_eq_zero.1 hprod).resolve_right (Nat.two_pow_pos k).ne'
        · omega
      rw [hnone, Nat.zero_mul]
      exact (Nat.zero_min _).symm
    · exact min_double _ _

theorem decrease_current_le (b : Backoff) : 2 * b.decrease.current ≤ b.current := by
  dsimp only [Backoff.decrease]
  split <;> omega

theorem decrease_current_lt (h : b.current ≠ 0) : b.decrease.current < b.current := by
  have := decrease_current_le b
  omega

/-- **Successes in a row** halve the delay each time at least. -/
theorem current_iterate_decrease_mul_le (b : Backoff) (k : Nat) :
    (decrease^[k] b).current * 2 ^ k ≤ b.current := by
  induction k with
  | zero => rw [Nat.pow_zero, Nat.mul_one]; exact Nat.le_refl _
  | succ k ih =>
    rw [Function.iterate_succ_apply']
    calc (decrease^[k] b).decrease.current * 2 ^ (k + 1)
        = 2 * (decrease^[k] b).decrease.current * 2 ^ k := by rw [Nat.pow_succ]; ring
      _ ≤ (decrease^[k] b).current * 2 ^ k := Nat.mul_le_mul_right _ (decrease_current_le _)
      _ ≤ b.current := ih

/-- Enough successes in a row halve every delay away. -/
theorem Bounded.current_iterate_decrease (h : b.Bounded) {k : Nat} (hlt : b.max < b.min * 2 ^ k) :
    (Backoff.decrease^[k] b).current = 0 := by
  have hbounded : ∀ n, (Backoff.decrease^[n] b).Bounded ∧ (Backoff.decrease^[n] b).min = b.min := by
    intro n
    induction n with
    | zero => exact ⟨h, rfl⟩
    | succ n ih =>
      rw [Function.iterate_succ_apply']
      exact ⟨ih.1.decrease, ih.2⟩
  obtain ⟨hleft, hmin⟩ := hbounded k
  refine hleft.current.resolve_right fun hwithin => ?_
  -- a delay that is left was at least as great as the minimum doubled each time
  have hgreat : b.min * 2 ^ k ≤ b.current := by
    rw [← hmin]
    exact (Nat.mul_le_mul_right _ hwithin.1).trans (current_iterate_decrease_mul_le b k)
  have hcurrent := h.current
  omega

/-! ### Sequences of answers -/

section

variable {us : List Upshot} {n : Nat} {x : Backoff}

theorem Bounded.of_mem_scanl (h : b.Bounded) (hx : x ∈ us.scanl Backoff.after b) :
    x.Bounded ∧ x.min = b.min ∧ x.max = b.max := by
  induction us generalizing b with
  | nil =>
    rw [List.scanl_nil, List.mem_singleton] at hx
    rw [hx]
    exact ⟨h, rfl, rfl⟩
  | cons u us ih =>
    rw [List.scanl_cons, List.mem_cons] at hx
    rcases hx with rfl | hx
    · exact ⟨h, rfl, rfl⟩
    · simpa using ih (h.after u) hx

theorem exists_scanl_after (b : Backoff) {u : Upshot} (hu : us[n]? = some u) :
    ∃ x, (us.scanl Backoff.after b)[n]? = some x := by
  have hn : n < us.length := (List.getElem?_eq_some_iff.1 hu).1
  exact ⟨_, List.getElem?_eq_getElem (by rw [List.length_scanl]; omega)⟩

theorem scanl_after_step {u : Upshot} (hx : (us.scanl Backoff.after b)[n]? = some x)
    (hu : us[n]? = some u) : (us.scanl Backoff.after b)[n + 1]? = some (x.after u) := by
  rw [List.getElem?_succ_scanl, hx, hu]
  rfl

theorem scanl_after_run {u : Upshot} (hx : (us.scanl Backoff.after b)[n]? = some x) {k : Nat}
    (hu : ∀ i < k, us[n + i]? = some u) :
    (us.scanl Backoff.after b)[n + k]? = some ((fun x => x.after u)^[k] x) := by
  induction k with
  | zero => exact hx
  | succ k ih =>
    rw [Function.iterate_succ_apply', ← Nat.add_assoc]
    exact scanl_after_step (ih fun i hi => hu i (by omega)) (hu k (Nat.lt_succ_self k))

/-- **The law of the delay** holds along every sequence of answers. -/
theorem delayLaw_scanl (hle : b.min ≤ b.max) (h0 : b.current = 0) (us : List Upshot) :
    DelayLaw b.min b.max us ((us.scanl Backoff.after b).map current) := by
  have hb := bounded_of_off hle h0
  have hmem : ∀ {n : Nat} {x : Backoff}, (us.scanl Backoff.after b)[n]? = some x →
      x.Bounded ∧ x.min = b.min ∧ x.max = b.max :=
    fun hx => hb.of_mem_scanl (List.mem_of_getElem? hx)
  have hdelay : ∀ {n delay : Nat}, ((us.scanl Backoff.after b).map current)[n]? = some delay →
      ∃ x, (us.scanl Backoff.after b)[n]? = some x ∧ x.current = delay := by
    intro n delay h
    rw [List.getElem?_map, Option.map_eq_some_iff] at h
    exact h
  have hthere : ∀ {n : Nat} {x : Backoff}, (us.scanl Backoff.after b)[n]? = some x →
      ((us.scanl Backoff.after b).map current)[n]? = some x.current := by
    intro n x hx
    rw [List.getElem?_map, hx]
    rfl
  constructor
  case length => rw [List.length_map, List.length_scanl]
  case bounds =>
    intro delay hdelay
    obtain ⟨x, hx, rfl⟩ := List.mem_map.1 hdelay
    obtain ⟨hbounded, hmin, hmax⟩ := hb.of_mem_scanl hx
    rw [← hmin, ← hmax]
    exact hbounded.current
  case failures =>
    intro n k hk hzero hfail
    obtain ⟨x, hx, hx0⟩ := hdelay hzero
    obtain ⟨hbounded, hmin, hmax⟩ := hmem hx
    obtain ⟨k, rfl⟩ := Nat.exists_eq_add_of_le' hk
    rw [hthere (scanl_after_run hx hfail)]
    have hcurrent := current_iterate_increase hbounded.min_le_max hx0 k
    rw [hmin, hmax] at hcurrent
    exact congrArg some hcurrent
  case success =>
    intro n delay hdone hd hpos
    obtain ⟨x, hx, rfl⟩ := hdelay hd
    exact ⟨_, decrease_current_lt hpos, hthere (scanl_after_step hx hdone)⟩
  case successes =>
    intro n k hlt hdone
    have hk : k ≠ 0 := by
      rintro rfl
      omega
    obtain ⟨x, hx⟩ : ∃ x, (us.scanl Backoff.after b)[n]? = some x :=
      exists_scanl_after b (hdone 0 (Nat.pos_of_ne_zero hk))
    obtain ⟨hbounded, hmin, hmax⟩ := hmem hx
    rw [← hmin, ← hmax] at hlt
    rw [hthere (scanl_after_run hx hdone)]
    exact congrArg some (hbounded.current_iterate_decrease hlt)
  case refusal =>
    intro n hrefused
    obtain ⟨x, hx⟩ := exists_scanl_after b hrefused
    rw [hthere hx, hthere (scanl_after_step hx hrefused)]
    rfl
  case off =>
    intro hmin delay hdelay
    obtain ⟨x, hx, rfl⟩ := List.mem_map.1 hdelay
    obtain ⟨hbounded, hmin', -⟩ := hb.of_mem_scanl hx
    exact hbounded.off (hmin'.trans hmin)

end

end Backoff

/-! ### The delay after an answer -/

/-- What an answer means for the delay. -/
def Hearing.upshot (h : Hearing) : Upshot :=
  match h.answer with
  | .ok _ => if h.remaining.isEmpty then .done else .again
  | .error e => if e.isRetryable then .again else .refused

namespace Delivery

variable (maxRetries : Nat) (backoff : Backoff) (a : Account)

theorem backoff_retry (d : Delivery) : (d.retry maxRetries backoff a).backoff = backoff := by
  unfold retry
  dsimp only
  split <;> rfl

theorem backoff_settleFailures (d : Delivery) (failures : List BulkItem) :
    (d.settleFailures maxRetries backoff a failures).backoff =
      if (retained d.documents failures).isEmpty then backoff.decrease else backoff.increase := by
  unfold settleFailures
  dsimp only
  rw [documents_foldl_addReason]
  split
  · rfl
  · exact backoff_retry _ _ _ _

theorem upshot_hearing_ok (d : Delivery) (response : BulkResponse) :
    (d.hearing maxRetries backoff a (.ok response)).upshot =
      if (retained d.documents response.failures).isEmpty then .done else .again := rfl

/-- **The delay after an answer** is told by its upshot. -/
theorem backoff_settle (d : Delivery) (answer : Answer) :
    (d.settle maxRetries backoff a answer).backoff =
      backoff.after (d.hearing maxRetries backoff a answer).upshot := by
  cases answer with
  | error e =>
    unfold Hearing.upshot hearing settle
    dsimp only
    split
    · exact backoff_retry _ _ _ _
    · rfl
  | ok response =>
    rw [upshot_hearing_ok]
    unfold settle
    dsimp only
    split
    · rw [backoff_settleFailures]
      split <;> rfl
    · rename_i hf
      rw [(retained_of_not_hasFailures d.documents hf).2]
      rfl

end Delivery

end SpanRelay
