import SpanRelay.Config.Format
import SpanRelay.Config.Override
import SpanRelay.Failure
import SpanRelay.File.Basic

/-! # Files of settings

`Config.ofFile` reads the settings from a file, in the format that the extension of its path tells,
and `Config.load` lays the variables over them. -/

namespace SpanRelay

namespace Config

/-- Why a path tells no format. -/
def unsupported (path : String) : String := "unsupported config file extension: " ++ path

/-- Why a text holds no settings. -/
def unreadable (f : Format) : String := f.name ++ " error: the text holds no settings"

/-- The settings in the text of a file. -/
def ofText (path text : String) : Except RelayError Config :=
  let format := (Path.extension? path.toList).bind fun e => Format.ofExtension? (String.ofList e)
  match format with
  | none => .error (.config (unsupported path))
  | some f =>
    match f.read? text.toList with
    | none => .error (.config (unreadable f))
    | some c => .ok c

/-- The settings in a file, if the pipeline can run with them. -/
def ofFile (files : Files) (path : String) : Except RelayError Config := do
  let c ← ofText path (← files.text path)
  c.validate

/-- What is said above a failure to load a file. -/
def loadingNote (path : String) : String := "failed to load " ++ path

/-- The note on settings that were being looked over. -/
def checkingNote : String := "invalid configuration"

/-- The settings to run with: those of a file, if one is given, with the variables laid over them. -/
def load (files : Files) (vars : Variables) (path : Option String) : Except Failure Config := do
  let c ←
    match path with
    | none => .ok .default
    | some path => (ofFile files path).mapError fun e => (Failure.of e).under (loadingNote path)
  (c.overriddenBy vars).validate.mapError fun e => (Failure.of e).under checkingNote

end Config

end SpanRelay
