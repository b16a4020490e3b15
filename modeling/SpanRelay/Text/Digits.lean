/-! # Digits

Numerals in a radix up to sixteen. `digit?` is the value of a digit, `ofDigits` the value of a run
of digits, `digits` the shortest numeral of a number and `padded` the numeral filled up with zeros
to a width. -/

namespace SpanRelay.Text

/-- The digit characters in the order of their values. -/
def digitChars : List Char :=
  ['0', '1', '2', '3', '4', '5', '6', '7', '8', '9', 'a', 'b', 'c', 'd', 'e', 'f']

/-- The character of a digit; `'0'` beyond fifteen. -/
def digitChar (d : Nat) : Char := digitChars.getD d '0'

/-- The value of a digit of the given radix, letters counting in either case. -/
def digit? (radix : Nat) (c : Char) : Option Nat :=
  let value :=
    if '0' ≤ c ∧ c ≤ '9' then c.toNat - '0'.toNat
    else if 'a' ≤ c ∧ c ≤ 'f' then c.toNat - 'a'.toNat + 10
    else if 'A' ≤ c ∧ c ≤ 'F' then c.toNat - 'A'.toNat + 10
    else radix
  if value < radix then some value else none

def isDecimal (c : Char) : Bool := (digit? 10 c).isSome

/-- The value of a run of digits, most significant first; a character that is no digit counts as
zero. -/
def ofDigits (radix : Nat) (cs : List Char) : Nat :=
  cs.foldl (fun n c => n * radix + (digit? radix c).getD 0) 0

/-- The value of a text that is a nonempty run of digits and nothing else. -/
def numeral? (radix : Nat) (cs : List Char) : Option Nat :=
  if !cs.isEmpty && cs.all fun c => (digit? radix c).isSome then some (ofDigits radix cs) else none

/-- The shortest decimal numeral of a number. -/
def digits (n : Nat) : List Char :=
  if n < 10 then [digitChar n] else digits (n / 10) ++ [digitChar (n % 10)]

/-- The shortest hexadecimal numeral of a number, in small letters. -/
def hexDigits (n : Nat) : List Char :=
  if n < 16 then [digitChar n] else hexDigits (n / 16) ++ [digitChar (n % 16)]

/-- A numeral filled up on the left with zeros to at least `width` characters. -/
def filled (width : Nat) (cs : List Char) : List Char :=
  List.replicate (width - cs.length) '0' ++ cs

/-- The decimal numeral of a number with at least `width` digits. -/
def padded (width n : Nat) : List Char := filled width (digits n)

/-- The decimal numeral of an integer, with a minus sign before a negative one. -/
def signedDigits (n : Int) : List Char :=
  if n < 0 then '-' :: digits n.natAbs else digits n.natAbs

/-- The longest run of decimal digits at the start of a text, and what follows it. -/
def spanDecimal (cs : List Char) : List Char × List Char := cs.span isDecimal

end SpanRelay.Text
