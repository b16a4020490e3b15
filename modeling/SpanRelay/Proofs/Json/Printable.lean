import SpanRelay.Proofs.Json.Reread

/-! # Written values have no control characters

The printer puts no blanks between the parts of a value, and in a string it writes every control
character as an escape. So nothing below the first visible character stands in the text of a value,
whatever its names and strings hold (`printable_print`); in particular the text is one line
(`newline_notMem_print`). -/

namespace SpanRelay.Json

open Text Decimal

/-- The text has no control characters. -/
def Printable (cs : List Char) : Prop := ∀ c ∈ cs, 0x20 ≤ c.toNat

theorem printable_of_all {cs : List Char} (h : cs.all (fun c => 0x20 ≤ c.toNat) = true) :
    Printable cs := fun c hc => of_decide_eq_true (List.all_eq_true.1 h c hc)

theorem printable_nil : Printable [] := nofun

theorem Printable.cons {c : Char} {cs : List Char} (h : Printable cs) (hc : 0x20 ≤ c.toNat) :
    Printable (c :: cs) := by
  intro d hd
  rcases List.mem_cons.1 hd with rfl | hd
  · exact hc
  · exact h d hd

theorem Printable.append {cs ds : List Char} (h : Printable cs) (h' : Printable ds) :
    Printable (cs ++ ds) := fun c hc => (List.mem_append.1 hc).elim (h c) (h' c)

theorem Printable.newline_notMem {cs : List Char} (h : Printable cs) : '\n' ∉ cs :=
  fun hn => absurd (h '\n' hn) (by decide)

/-! ### Numbers -/

theorem printable_of_decimal {cs : List Char} (h : ∀ c ∈ cs, isDecimal c = true) : Printable cs := by
  intro c hc
  by_contra hlt
  have hall : ∀ n < 0x20, isDecimal (Char.ofNat n) = false := by decide
  have hdigit := h c hc
  rw [← Char.ofNat_toNat c, hall c.toNat (Nat.not_le.1 hlt)] at hdigit
  cases hdigit

theorem printable_digits (n : Nat) : Printable (digits n) :=
  printable_of_decimal (isDecimal_of_mem_digits n)

theorem printable_signedDigits (n : Int) : Printable (signedDigits n) := by
  unfold signedDigits
  split
  · exact (printable_digits _).cons (by decide)
  · exact printable_digits _

theorem printable_text {n : Numeral} (h : n.Proper) : Printable n.text := by
  refine (printable_of_decimal h.whole).append (Printable.append ?_ ?_)
  · split_ifs
    · exact printable_nil
    · exact (printable_of_decimal h.fraction).cons (by decide)
  · split_ifs
    · exact printable_nil
    · exact ((printable_digits _).cons (by decide)).cons (by decide)
    · exact ((printable_digits _).cons (by decide)).cons (by decide)

theorem printable_printReal (x : Float) : Printable (printReal x) := by
  cases hx : Shape.ofFloat x with
  | nan | infinite negative =>
    rw [printReal_of_ne (by simp [hx])]
    exact printable_of_all rfl
  | finite negative m p =>
    obtain ⟨hproper, htext⟩ := printReal_finite hx
    rw [htext]
    refine Printable.append ?_ (printable_text hproper)
    split
    · exact printable_nil.cons (by decide)
    · exact printable_nil

/-! ### Strings -/

theorem printable_unitEscape {n : Nat} (h : n < 0x20) : Printable (unitEscape n) := by
  have hall : ∀ d < 16, 0x20 ≤ (digitChar d).toNat := by decide
  have hhigh := hall (n / 16) (by omega)
  have hlow := hall (n % 16) (Nat.mod_lt n (by decide))
  have hmark : Printable ['\\', 'u', '0', '0'] := printable_of_all rfl
  rw [unitEscape, filled_hexDigits h]
  exact hmark.append ((printable_nil.cons hlow).cons hhigh)

/-- One character of a string is written without control characters, one that is a control character
included. -/
theorem printable_escape (c : Char) : Printable (escape c) := by
  unfold escape
  split_ifs with h1 h2 h3 h4 h5 h6 h7 hcontrol
  iterate 7 exact (printable_nil.cons (by decide)).cons (by decide)
  · exact printable_unitEscape hcontrol
  · exact printable_nil.cons (Nat.not_lt.1 hcontrol)

theorem printable_quoted (s : String) : Printable (quoted s) := by
  have hescaped : Printable (escaped s.toList) := by
    intro c hc
    obtain ⟨d, -, hd⟩ := List.mem_flatMap.1 hc
    exact printable_escape d c hd
  exact (hescaped.append (printable_nil.cons (by decide))).cons (by decide)

/-! ### Values -/

mutual

/-- **A written value** has no control characters. -/
theorem printable_print : ∀ v : Json, Printable v.print
  | .null | .unreadable | .bool true | .bool false | .list [] | .object [] => printable_of_all rfl
  | .int n => printable_signedDigits n
  | .real x => printable_printReal x
  | .text s => printable_quoted s
  | .list (v :: vs) => ((printable_print v).append (printable_printItems vs)).cons (by decide)
  | .object ((name, v) :: ms) =>
    ((printable_quoted name).append
      (((printable_print v).append (printable_printMembers ms)).cons (by decide))).cons (by decide)

theorem printable_printItems : ∀ vs : List Json, Printable (printItems vs)
  | [] => printable_nil.cons (by decide)
  | v :: vs => ((printable_print v).append (printable_printItems vs)).cons (by decide)

theorem printable_printMembers : ∀ ms : List (String × Json), Printable (printMembers ms)
  | [] => printable_nil.cons (by decide)
  | (name, v) :: ms =>
    ((printable_quoted name).append
      (((printable_print v).append (printable_printMembers ms)).cons (by decide))).cons (by decide)

end

theorem newline_notMem_print (v : Json) : '\n' ∉ v.print := (printable_print v).newline_notMem

end SpanRelay.Json
