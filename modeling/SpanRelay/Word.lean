/-! # Words

Whole numbers are limited by the number of their bits. `Word.range` is the limit. -/

namespace SpanRelay.Word

/-- How many numbers there are of so many bits. -/
def range (bits : Nat) : Nat := Nat.pow 2 bits

theorem range_64 : range 64 = 18446744073709551616 := rfl

end SpanRelay.Word
