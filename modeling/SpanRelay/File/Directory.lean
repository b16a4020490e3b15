import SpanRelay.File.Basic

/-! # Directories in memory

A `Directory` holds files without a disk, for rehearsals. `Directory.files` is what a program can
read in it, with the failures that a system reports. -/

namespace SpanRelay

/-- The files of a directory: the names on the way to each of them, and its bytes. -/
structure Directory where
  contents : List (List String × ByteArray)

namespace Directory

/-- The names in a path; empty ones and single dots lead nowhere. -/
def names (path : String) : List String :=
  ((path.toList.splitOn '/').map String.ofList).filter fun part => part ≠ "" && part ≠ "."

/-- The directory of some files by their paths. -/
def ofList (files : List (String × ByteArray)) : Directory :=
  ⟨files.map fun f => (names f.1, f.2)⟩

/-- The content of the file at a place. -/
def file? (d : Directory) (place : List String) : Option ByteArray :=
  (d.contents.find? fun f => f.1 = place).map Prod.snd

/-- Whether a place has files inside; the directory itself always counts. -/
def isFolder (d : Directory) (place : List String) : Bool :=
  place.isEmpty || d.contents.any fun f => place.isPrefixOf f.1 && f.1 ≠ place

/-- A name with more bytes is not taken by the file system. -/
def maxNameBytes : Nat := 255

/-- The place to which some parts of a path lead from a place. -/
def walk (d : Directory) : List String → List String → Except String (List String)
  | place, [] => .ok place
  | place, part :: parts =>
    if (d.file? place).isSome then .error Files.notFolder
    else if part = "" || part = "." then d.walk place parts
    else if part = ".." then d.walk place.dropLast parts
    else if maxNameBytes < part.utf8ByteSize then .error "File name too long (os error 36)"
    else
      let next := place ++ [part]
      if (d.file? next).isSome || d.isFolder next then d.walk next parts
      else .error Files.notFound

/-- What a program can read in the directory. -/
def files (d : Directory) : Files := fun path =>
  if path = "" then .error Files.notFound
  else if path.toList.contains '\x00' then .error "file name contained an unexpected NUL byte"
  else
    match d.walk [] ((path.toList.splitOn '/').map String.ofList) with
    | .error reason => .error reason
    | .ok place =>
      match d.file? place with
      | some bytes => .ok bytes
      | none => .error Files.notFile

end Directory

end SpanRelay
