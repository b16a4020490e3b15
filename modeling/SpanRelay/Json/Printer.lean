import SpanRelay.Decimal.Layout
import SpanRelay.Json.Basic

/-! # Writing JSON

`Json.print` is the compact text of a value: no blanks, members in their order, and in a string only
quotes, backslashes and control characters escaped. -/

namespace SpanRelay.Json

/-- The code unit `n` as an escape, four hexadecimal digits in small letters. -/
def unitEscape (n : Nat) : List Char := '\\' :: 'u' :: Text.filled 4 (Text.hexDigits n)

/-- One character of a string. -/
def escape (c : Char) : List Char :=
  if c = '"' then ['\\', '"']
  else if c = '\\' then ['\\', '\\']
  else if c = '\n' then ['\\', 'n']
  else if c = '\r' then ['\\', 'r']
  else if c = '\t' then ['\\', 't']
  else if c = '\x08' then ['\\', 'b']
  else if c = '\x0c' then ['\\', 'f']
  else if c.toNat < 0x20 then unitEscape c.toNat
  else [c]

/-- The characters of a string between its quotes. -/
def escaped (cs : List Char) : List Char := cs.flatMap escape

/-- A string in its quotes. -/
def quoted (s : String) : List Char := '"' :: (escaped s.toList ++ ['"'])

/-- A floating point number; what is not finite has no form and is written as `null`. -/
def printReal (x : Float) : List Char :=
  match Decimal.Shape.ofFloat x with
  | .finite .. => Decimal.Layout.exchange.write x
  | _ => ['n', 'u', 'l', 'l']

mutual

/-- The compact text of a value. A value that could not be read is written like an absent one. -/
def print : Json → List Char
  | .null | .unreadable => ['n', 'u', 'l', 'l']
  | .bool true => ['t', 'r', 'u', 'e']
  | .bool false => ['f', 'a', 'l', 's', 'e']
  | .int n => Text.signedDigits n
  | .real x => printReal x
  | .text s => quoted s
  | .list [] => ['[', ']']
  | .list (v :: vs) => '[' :: (print v ++ printItems vs)
  | .object [] => ['{', '}']
  | .object ((name, v) :: ms) => '{' :: (quoted name ++ ':' :: (print v ++ printMembers ms))

/-- The items of a list after the first, and the closing bracket. -/
def printItems : List Json → List Char
  | [] => [']']
  | v :: vs => ',' :: (print v ++ printItems vs)

/-- The members of an object after the first, and the closing brace. -/
def printMembers : List (String × Json) → List Char
  | [] => ['}']
  | (name, v) :: ms => ',' :: (quoted name ++ ':' :: (print v ++ printMembers ms))

end

/-- The compact text as a string. -/
def compact (v : Json) : String := String.ofList v.print

end SpanRelay.Json
