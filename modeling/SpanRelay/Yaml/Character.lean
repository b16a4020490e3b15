/-! # Characters of the indented format

Which characters may stand in a text of the indented settings format, which end a line and which
need an escape when they are written. -/

namespace SpanRelay.Yaml

/-- A character that ends a line. -/
def isBreak (c : Char) : Bool :=
  c = '\n' || c = '\r' || c = '\u0085' || c = '\u2028' || c = '\u2029'

/-- A space or a tab. -/
def isBlank (c : Char) : Bool := c = ' ' || c = '\t'

/-- The mark by which a text may begin. -/
def byteOrderMark : Char := Char.ofNat 0xFEFF

/-- A character that is written as it stands in a scalar on one line. -/
def isPrintable (c : Char) : Bool :=
  c = '\n' || (0x20 ≤ c.toNat && c.toNat ≤ 0x7E)
    || (0xA0 ≤ c.toNat && c ≠ byteOrderMark && c.toNat ≠ 0xFFFE && c.toNat ≠ 0xFFFF)

/-- A character that may stand in a text. -/
def isAllowed (c : Char) : Bool :=
  c = '\t' || c = '\r' || c = '\u0085' || c = byteOrderMark || isPrintable c

/-- Whether a text ends here, or a line does, or a blank comes. -/
def atBlankOrEnd : List Char → Bool
  | [] => true
  | c :: _ => isBlank c || isBreak c

/-- Whether a text or a line ends here. -/
def atLineEnd : List Char → Bool
  | [] => true
  | c :: _ => isBreak c

/-- A character of the names of anchors and handles. -/
def isWordChar (c : Char) : Bool := c.isAlphanum || c = '_' || c = '-'

end SpanRelay.Yaml
