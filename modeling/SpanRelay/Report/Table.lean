import SpanRelay.Text.Digits

/-! # Tables

The form of a report for people: titles, and rows with a name and a value. Some texts are painted,
which shows only where colours are asked for. -/

namespace SpanRelay

/-- A paint for a text. -/
inductive Paint
  | bold
  | red
  | yellow
  | boldRed
  | boldGreen
deriving DecidableEq, Repr

/-- The code that a terminal knows the paint by. -/
def Paint.codes : Paint → String
  | bold => "1"
  | red => "31"
  | yellow => "33"
  | boldRed => "1;31"
  | boldGreen => "1;32"

/-- The sequence that starts a style with some codes. -/
def styleSequence (codes : String) : List Char := '\x1b' :: '[' :: (codes.toList ++ ['m'])

/-- The sequence that ends all styles. -/
def resetSequence : List Char := styleSequence "0"

/-- A text in which the style begins anew wherever the text ends it; `skip` characters of such an end
are still to come. -/
def restyled (style : List Char) : Nat → List Char → List Char
  | _, [] => []
  | 0, c :: cs =>
    if resetSequence.isPrefixOf (c :: cs) then c :: restyled style (resetSequence.length - 1) cs
    else c :: restyled style 0 cs
  | 1, c :: cs => c :: (style ++ restyled style 0 cs)
  | skip + 2, c :: cs => c :: restyled style (skip + 1) cs

/-- A text with its paint, if it has one. -/
structure Painted where
  text : List Char
  paint : Option Paint

namespace Painted

/-- Characters without paint. -/
def plain (cs : List Char) : Painted := ⟨cs, none⟩

/-- A number without paint. -/
def count (n : Nat) : Painted := plain (Text.digits n)

/-- A number that is painted unless it is zero. -/
def alarm (paint : Paint) (n : Nat) : Painted :=
  ⟨Text.digits n, if n = 0 then none else some paint⟩

/-- The text, with its paint if colours are asked for. -/
def write (coloured : Bool) (p : Painted) : List Char :=
  match p.paint with
  | some paint =>
    if coloured then
      let style := styleSequence paint.codes
      style ++ restyled style 0 p.text ++ resetSequence
    else p.text
  | none => p.text

end Painted

/-- A line of a table. -/
inductive Line
  | title (t : Painted)
  /-- A title with a text behind it. -/
  | status (t : Painted) (s : String)
  | row (name : String) (value : Painted)

/-- The width of the names in rows. -/
def Line.nameWidth : Nat := 32

/-- A line as it is printed, with its end. Names are filled up to one width. -/
def Line.write (coloured : Bool) : Line → List Char
  | title t => t.write coloured ++ ['\n']
  | status t s => t.write coloured ++ ' ' :: (s.toList ++ ['\n'])
  | row name value =>
    ' ' :: ' ' :: (name.toList ++ List.replicate (nameWidth - name.length) ' '
      ++ ' ' :: (value.write coloured ++ ['\n']))

/-- A title in bold letters. -/
def Line.heading (s : String) : Line := .title ⟨s.toList, some .bold⟩

def Line.text (name value : String) : Line := .row name (.plain value.toList)

def Line.count (name : String) (n : Nat) : Line := .row name (.count n)

abbrev Table := List Line

/-- The lines one below the other. -/
def Table.write (coloured : Bool) (t : Table) : List Char := t.flatMap (Line.write coloured)

end SpanRelay
