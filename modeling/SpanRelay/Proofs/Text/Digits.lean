import Mathlib.Algebra.Group.Nat.Defs
import Mathlib.Data.List.Induction
import Mathlib.Data.List.TakeDrop
import SpanRelay.Text.Digits

/-! # Digits that are read back

The digits of a number are decimal digits whose value is the number (`ofDigits_digits`), without a zero
in front (`head?_digits`), and a reader takes up all of them (`spanDecimal_append`). A numeral that is
filled up with zeros has the same value (`ofDigits_padded`). -/

namespace SpanRelay.Text

theorem digit?_digitChar {d : Nat} (h : d < 10) : digit? 10 (digitChar d) = some d := by
  have hall : ∀ d < 10, digit? 10 (digitChar d) = some d := by decide
  exact hall d h

theorem isDecimal_digitChar {d : Nat} (h : d < 10) : isDecimal (digitChar d) = true := by
  rw [isDecimal, digit?_digitChar h]
  rfl

theorem ofDigits_append (radix : Nat) (cs ds : List Char) :
    ofDigits radix (cs ++ ds) =
      ds.foldl (fun n c => n * radix + (digit? radix c).getD 0) (ofDigits radix cs) :=
  List.foldl_append

theorem ofDigits_concat (radix : Nat) (cs : List Char) (c : Char) :
    ofDigits radix (cs ++ [c]) = ofDigits radix cs * radix + (digit? radix c).getD 0 :=
  ofDigits_append radix cs [c]

theorem digits_of_lt {n : Nat} (h : n < 10) : digits n = [digitChar n] := by
  rw [digits, if_pos h]

theorem digits_of_le {n : Nat} (h : 10 ≤ n) :
    digits n = digits (n / 10) ++ [digitChar (n % 10)] := by
  rw [digits, if_neg (Nat.not_lt.2 h)]

/-- **The digits of a number** have it as their value. -/
theorem ofDigits_digits (n : Nat) : ofDigits 10 (digits n) = n := by
  induction n using digits.induct with
  | case1 n h =>
    rw [digits_of_lt h]
    change 0 * 10 + (digit? 10 (digitChar n)).getD 0 = n
    rw [digit?_digitChar h]
    exact Nat.zero_add n
  | case2 n h ih =>
    rw [digits_of_le (Nat.not_lt.1 h), ofDigits_concat, ih, digit?_digitChar (by omega)]
    exact Nat.div_add_mod' n 10

theorem isDecimal_of_mem_digits (n : Nat) : ∀ c ∈ digits n, isDecimal c = true := by
  induction n using digits.induct with
  | case1 n h =>
    rw [digits_of_lt h]
    intro c hc
    rw [List.mem_singleton.1 hc]
    exact isDecimal_digitChar h
  | case2 n h ih =>
    rw [digits_of_le (Nat.not_lt.1 h)]
    intro c hc
    rcases List.mem_append.1 hc with hc | hc
    · exact ih c hc
    · rw [List.mem_singleton.1 hc]
      exact isDecimal_digitChar (by omega)

theorem digits_ne_nil (n : Nat) : digits n ≠ [] := by
  rcases Nat.lt_or_ge n 10 with h | h
  · rw [digits_of_lt h]
    exact List.cons_ne_nil _ _
  · rw [digits_of_le h]
    exact List.append_ne_nil_of_right_ne_nil _ (List.cons_ne_nil _ _)

theorem head?_digits {n : Nat} (h : 0 < n) : (digits n).head? ≠ some '0' := by
  induction n using digits.induct with
  | case1 n hn =>
    rw [digits_of_lt hn]
    have hall : ∀ n < 10, 0 < n → [digitChar n].head? ≠ some '0' := by decide
    exact hall n hn h
  | case2 n hn ih =>
    rw [digits_of_le (Nat.not_lt.1 hn), List.head?_append, List.head?_eq_some_head (digits_ne_nil _),
      Option.some_or, ← List.head?_eq_some_head]
    exact ih (by omega)

theorem digit?_lt (c : Char) : (digit? 10 c).getD 0 < 10 := by
  cases hc : digit? 10 c with
  | none => decide
  | some v =>
    obtain ⟨h, hv⟩ := Option.ite_none_right_eq_some.1 hc
    rw [Option.some.inj hv] at h
    exact h

theorem ofDigits_lt (ds : List Char) : ofDigits 10 ds < 10 ^ ds.length := by
  induction ds using List.reverseRecOn with
  | nil => decide
  | append_singleton ds c ih =>
    have hc := digit?_lt c
    rw [ofDigits_concat, List.length_append, List.length_singleton, Nat.pow_succ]
    omega

theorem ofDigits_le_append (cs ds : List Char) : ofDigits 10 cs ≤ ofDigits 10 (cs ++ ds) := by
  induction ds using List.reverseRecOn with
  | nil => exact Nat.le_of_eq (congrArg _ (List.append_nil cs).symm)
  | append_singleton ds c ih =>
    rw [← List.append_assoc, ofDigits_concat]
    omega

/-- The text does not go on with a digit. -/
def NoDigit (cs : List Char) : Prop := ∀ c, cs.head? = some c → isDecimal c = false

/-- **A reader takes up** a whole run of digits. -/
theorem spanDecimal_append {ds rest : List Char} (hd : ∀ c ∈ ds, isDecimal c = true)
    (hr : NoDigit rest) : spanDecimal (ds ++ rest) = (ds, rest) := by
  unfold spanDecimal
  rw [List.span_eq_takeWhile_dropWhile, List.takeWhile_append_of_pos hd,
    List.dropWhile_append_of_pos hd]
  cases rest with
  | nil => rw [List.takeWhile_nil, List.dropWhile_nil, List.append_nil]
  | cons c cs =>
    have hc : ¬ isDecimal c = true := by
      rw [hr c rfl]
      exact Bool.false_ne_true
    rw [List.takeWhile_cons_of_neg hc, List.dropWhile_cons_of_neg hc, List.append_nil]

/-! ### Numerals of a given width -/

theorem length_digits_le {width n : Nat} (hw : 0 < width) (h : n < 10 ^ width) :
    (digits n).length ≤ width := by
  induction n using digits.induct generalizing width with
  | case1 n hn =>
    rw [digits_of_lt hn]
    exact hw
  | case2 n hn ih =>
    obtain ⟨k, rfl⟩ : ∃ k, width = k + 1 := ⟨width - 1, by omega⟩
    rw [Nat.pow_succ] at h
    have hk : 0 < k := by
      rcases Nat.eq_zero_or_pos k with rfl | hk
      · omega
      · exact hk
    have ih := ih hk (by omega)
    rw [digits_of_le (Nat.not_lt.1 hn), List.length_append, List.length_singleton]
    omega

theorem length_padded {width n : Nat} (hw : 0 < width) (h : n < 10 ^ width) :
    (padded width n).length = width := by
  have hle := length_digits_le hw h
  rw [padded, filled, List.length_append, List.length_replicate]
  omega

theorem isDecimal_of_mem_zeros {k : Nat} : ∀ c ∈ List.replicate k '0', isDecimal c = true := by
  intro c hc
  rw [List.eq_of_mem_replicate hc]
  rfl

theorem isDecimal_of_mem_padded (width n : Nat) : ∀ c ∈ padded width n, isDecimal c = true := by
  intro c hc
  exact (List.mem_append.1 hc).elim (isDecimal_of_mem_zeros c) (isDecimal_of_mem_digits n c)

theorem padded_ne_nil (width n : Nat) : padded width n ≠ [] :=
  List.append_ne_nil_of_right_ne_nil _ (digits_ne_nil n)

theorem ofDigits_padded (width n : Nat) : ofDigits 10 (padded width n) = n := by
  have hzeros : ∀ k, ofDigits 10 (List.replicate k '0') = 0 := by
    intro k
    induction k with
    | zero => rfl
    | succ k ih =>
      rw [List.replicate_succ', ofDigits_concat, ih]
      rfl
  rw [padded, filled, ofDigits_append, hzeros]
  exact ofDigits_digits n

end SpanRelay.Text
