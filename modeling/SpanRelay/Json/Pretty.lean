import SpanRelay.Json.Printer

/-! # Writing JSON on several lines

`Json.pretty` is the text of a value with each item and each member on a line of its own, two spaces
deeper than the brackets around it. -/

namespace SpanRelay.Json

/-- The end of a line and the spaces of the next one at a depth. -/
def lineAt (depth : Nat) : List Char := '\n' :: List.replicate (2 * depth) ' '

mutual

/-- A value on lines of its own, indented by its depth. What is empty stays on one line. -/
def printAt (depth : Nat) : Json → List Char
  | .list (v :: vs) =>
    '[' :: (lineAt (depth + 1) ++ printAt (depth + 1) v ++ printItemsAt depth vs)
  | .object ((name, v) :: ms) =>
    '{' :: (lineAt (depth + 1) ++ quoted name ++ ':' :: ' ' :: printAt (depth + 1) v
      ++ printMembersAt depth ms)
  | .list [] => ['[', ']']
  | .object [] => ['{', '}']
  | .null => print .null
  | .unreadable => print .unreadable
  | .bool b => print (.bool b)
  | .int n => print (.int n)
  | .real x => print (.real x)
  | .text s => print (.text s)

/-- The items of a list after the first, and the closing bracket. -/
def printItemsAt (depth : Nat) : List Json → List Char
  | [] => lineAt depth ++ [']']
  | v :: vs => ',' :: (lineAt (depth + 1) ++ printAt (depth + 1) v ++ printItemsAt depth vs)

/-- The members of an object after the first, and the closing brace. -/
def printMembersAt (depth : Nat) : List (String × Json) → List Char
  | [] => lineAt depth ++ ['}']
  | (name, v) :: ms =>
    ',' :: (lineAt (depth + 1) ++ quoted name ++ ':' :: ' ' :: printAt (depth + 1) v
      ++ printMembersAt depth ms)

end

/-- A value over several lines, two blanks for each level. -/
def pretty (v : Json) : List Char := printAt 0 v

end SpanRelay.Json
