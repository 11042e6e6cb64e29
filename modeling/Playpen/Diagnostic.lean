import Playpen.Text.Blank
import Playpen.Text.Search
import Playpen.Value

namespace Playpen

structure Location where
  file : List Char
  line : List Char
  message : List Char
deriving DecidableEq

structure Diagnostic where
  raw : List Char
  lines : List (List Char)
  location : Option Location

namespace Diagnostic

def speaksOfError (line : List Char) : Bool :=
  line.contains ':' &&
    (Text.occursIn "error".toList line || Text.occursIn "Error".toList line)

def trim (s : List Char) : List Char := Text.trimBy Text.isBlank s

def locationOf (line : List Char) : Option Location :=
  match Text.split ':' line with
  | file :: number :: part :: parts =>
    some ⟨trim file, trim number, trim (Text.join ':' (part :: parts))⟩
  | _ => none

def ofText (raw : List Char) : Diagnostic :=
  let lines := Text.split '\n' (trim raw)
  { raw, lines, location := (lines.find? speaksOfError).bind locationOf }

def fields (d : Diagnostic) : List (String × Value) :=
  let text (s : List Char) : Value := .text (String.ofList s)
  let place := match d.location with
    | some l => [("file", text l.file), ("line", text l.line), ("message", text l.message)]
    | none => []
  [("raw_error", text d.raw), ("lines", .list (d.lines.map text))] ++ place

end Diagnostic

end Playpen
