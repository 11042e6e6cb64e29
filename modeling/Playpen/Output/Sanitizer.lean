import Playpen.Output.Stream
import Playpen.Text.Blank
import Playpen.Text.Search
/-!
Sanitized output: the lines of a captured stream sorted into what the program printed and the
generated code that the compiler shows between two sentinel lines.
-/
namespace Playpen

/-- Fragments that mark lines. An empty sentinel marks none, and neither does an empty noise marker. -/
structure Markers where
  opening : List Char := "=== Generated Code ===".toList
  closing : List Char := "=== End Generated Code ===".toList
  noise : List (List Char) := ["Built:".toList, "yzc build".toList, "running generated app".toList,
    "Execution completed".toList]

structure Sanitized where
  program : List Char
  generated : List Char
  hasOutput : Bool
deriving DecidableEq

namespace Sanitizer

def noOutput : List Char := "Program executed successfully (no output)".toList

def dropReturn (line : List Char) : List Char :=
  match line.getLast? with
  | some '\r' => line.dropLast
  | _ => line

def edge (line : List Char) : List Char := Text.trimBy Text.isEdgeBlank line

def marks (marker trimmed : List Char) : Bool := !marker.isEmpty && Text.occursIn marker trimmed

def isControl (c : Char) : Bool := 1 ≤ c.toNat && c.toNat ≤ 0x1f

def isOutput (m : Markers) (trimmed : List Char) : Bool :=
  !(m.noise.any (marks · trimmed)) && 2 ≤ trimmed.length && !trimmed.any isControl

def sift (m : Markers) (sections : Bool) : Bool → List (List Char) → List (List Char) × List (List Char)
  | _, [] => ([], [])
  | inside, line :: rest =>
    let trimmed := edge line
    if trimmed.isEmpty then sift m sections inside rest
    else if sections && marks m.opening trimmed then sift m sections true rest
    else if sections && inside && marks m.closing trimmed then sift m sections false rest
    else if sections && inside then
      let (program, generated) := sift m sections inside rest
      (program, line :: generated)
    else if isOutput m trimmed then
      let (program, generated) := sift m sections inside rest
      (line :: program, generated)
    else sift m sections inside rest

def lines (raw : Raw) : List (List Char) := (Text.split '\n' (Stream.clean raw)).map dropReturn

def assemble (ls : List (List Char)) : List Char := Text.trimBy Text.isBlank (Text.join '\n' ls)

end Sanitizer

open Sanitizer in
def sanitize (m : Markers) (sections : Bool) (raw : Raw) : Sanitized :=
  let (program, generated) := sift m sections false (lines raw)
  let body := assemble program
  { program := if body.isEmpty then noOutput else body
    generated := assemble generated
    hasOutput := !body.isEmpty }

end Playpen
