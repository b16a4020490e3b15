/-! # Base64

`Text.base64` writes bytes in the alphabet of 64 characters, three bytes as four characters, the
last group filled up with equals signs. -/

namespace SpanRelay.Text

/-- The character of six bits. -/
def sextetChar (n : Nat) : Char :=
  if n < 26 then Char.ofNat ('A'.toNat + n)
  else if n < 52 then Char.ofNat ('a'.toNat + (n - 26))
  else if n < 62 then Char.ofNat ('0'.toNat + (n - 52))
  else if n = 62 then '+'
  else '/'

/-- The four characters of three bytes. -/
def quartet (a b c : UInt8) : List Char :=
  let n := a.toNat * 65536 + b.toNat * 256 + c.toNat
  [n / 262144, n / 4096 % 64, n / 64 % 64, n % 64].map sextetChar

/-- The bytes in groups of three, the last group filled up. -/
def base64 : List UInt8 → List Char
  | [] => []
  | [a] => (quartet a 0 0).take 2 ++ ['=', '=']
  | [a, b] => (quartet a b 0).take 3 ++ ['=']
  | a :: b :: c :: bytes => quartet a b c ++ base64 bytes

end SpanRelay.Text
