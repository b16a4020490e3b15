import SpanRelay.Error

/-! # Files

`Files` is what a program can read: the bytes of each path, or why there are none. `Files.text` reads
a text, and `Path.extension?` is what the name of a file ends in. -/

namespace SpanRelay

/-- The files that can be read: the bytes of each path, or why there are none. -/
abbrev Files := String → Except String ByteArray

namespace Files

/-- Why there is no file at a path. -/
def notFound : String := "No such file or directory (os error 2)"

/-- Why a folder has no bytes. -/
def notFile : String := "Is a directory (os error 21)"

/-- Why nothing is found inside a file. -/
def notFolder : String := "Not a directory (os error 20)"

/-- Why a file must not be read. -/
def notAllowed : String := "Permission denied (os error 13)"

/-- Why bytes are no text. -/
def notText : String := "stream did not contain valid UTF-8"

/-- The text of a file. It must be in UTF-8. -/
def text (files : Files) (path : String) : Except RelayError String :=
  match files path with
  | .error reason => .error (.file reason)
  | .ok bytes =>
    match String.fromUTF8? bytes with
    | some text => .ok text
    | none => .error (.file notText)

end Files

namespace Path

/-- The last component of a path; empty components and single dots do not count. -/
def fileName? (path : List Char) : Option (List Char) :=
  let parts := (path.splitOn '/').filter fun part => !part.isEmpty && part ≠ ['.']
  parts.getLast?.filter fun part => part ≠ ['.', '.']

/-- What stands behind the last dot of the file name; a dot in front only hides the file. -/
def extension? (path : List Char) : Option (List Char) := do
  let name ← fileName? path
  let ending := (name.reverse.takeWhile (· ≠ '.')).reverse
  if name.length ≤ ending.length + 1 then none else some ending

end Path

end SpanRelay
