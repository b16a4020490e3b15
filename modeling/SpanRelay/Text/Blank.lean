/-! # Blanks

The characters with the Unicode property `White_Space`, as the table `blankRanges` of code point
ranges. `isBlank` asks the table, `trimStart` and `trim` drop blanks at the ends of a text. -/

namespace SpanRelay.Text

/-- The code points with the property `White_Space`, as closed ranges in increasing order. -/
def blankRanges : List (Nat × Nat) :=
  [(0x9, 0xD), (0x20, 0x20), (0x85, 0x85), (0xA0, 0xA0), (0x1680, 0x1680), (0x2000, 0x200A),
    (0x2028, 0x2029), (0x202F, 0x202F), (0x205F, 0x205F), (0x3000, 0x3000)]

/-- A character is blank if its code point lies in one of `blankRanges`. -/
def isBlank (c : Char) : Bool :=
  blankRanges.any fun r => r.1 ≤ c.toNat && c.toNat ≤ r.2

/-- The text without the blanks it starts with. -/
def trimStart (cs : List Char) : List Char := cs.dropWhile isBlank

/-- The text without the blanks it starts and ends with. -/
def trim (cs : List Char) : List Char := (trimStart (trimStart cs).reverse).reverse

theorem trimStart_of_not_isBlank {c : Char} {cs : List Char} (h : isBlank c = false) :
    trimStart (c :: cs) = c :: cs := by simp [trimStart, h]

end SpanRelay.Text
