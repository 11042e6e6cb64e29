import Playpen.Env
import Playpen.Output.Sanitizer
import Playpen.Text.Shell
/-!
The settings shared by the runners of one pool. Those that only pass through to the control plane keep
whatever value the configuration holds; the others are turned into text where they are used.
-/
namespace Playpen

structure Settings (τ : Type) where
  image : Value
  memoryLimit : Int
  maxExecutionTime : τ
  workingDir : Value
  compiler : Value
  user : Value := .text "yzuser"
  containerName : Value := .null
  containerPrefix : Value := .text "yz-sandbox"
  controlPlane : Value := .text "docker-cli"
  dockerBinary : Value := .text "docker"
  networkEnabled : Value := .bool false
  privileged : Value := .bool false
  controlTimeout : τ
  sourceFilename : Value := .text "main.yz"
  runCommand : Value := .text "cd \x7bworkdir\x7d && \x7bcompiler\x7d \x7bsource\x7d"
  generatedCodeCommand : Value := .text "cd \x7bworkdir\x7d && \x7bcompiler\x7d -e \x7bsource\x7d"
  versionCommand : Value := .text "\x7bcompiler\x7d --version"
  generatedCodeBegin : Value := .text "=== Generated Code ==="
  generatedCodeEnd : Value := .text "=== End Generated Code ==="
  noiseMarkers : List Value := [.text "Built:", .text "yzc build", .text "running generated app",
    .text "Execution completed"]
deriving Inhabited

namespace Settings

variable {τ : Type}

def ownsEnvironment (s : Settings τ) : Bool := !s.containerName.truth

def word (v : Value) : Except Misuse (List Char) :=
  if !v.truth then .ok (Shell.quote [])
  else match v with
    | .text s => .ok (Shell.quote s.toList)
    | _ => .error .wrongType

def compilerToken : List Char := "\x7bcompiler\x7d".toList

def sourceToken : List Char := "\x7bsource\x7d".toList

def workdirToken : List Char := "\x7bworkdir\x7d".toList

/-- Fills in compiler, source and working directory, in this order, each in the text reached so far. -/
def expand (s : Settings τ) (template : Value) : Except Misuse (List Char) := do
  let compiler ← word s.compiler
  let source ← word s.sourceFilename
  let workdir ← word s.workingDir
  let text ← template.display
  let t := Text.replace compilerToken compiler text.toList
  let t := Text.replace sourceToken source t
  pure (Text.replace workdirToken workdir t)

def markerText : Value → List Char
  | .text t => t.toList
  | _ => []

def isOdd (v : Value) : Bool :=
  match v with
  | .text _ => false
  | v => v.truth

def markers (s : Settings τ) : Markers where
  opening := markerText s.generatedCodeBegin
  closing := markerText s.generatedCodeEnd
  noise := s.noiseMarkers.map markerText

def textBeforeOdd : List Value → Option (List (List Char))
  | [] => none
  | v :: rest =>
    if isOdd v then some [] else (textBeforeOdd rest).map (markerText v :: ·)

open Sanitizer in
def meetsOdd (s : Settings τ) (sections : Bool) : Bool → List (List Char) → Bool
  | _, [] => false
  | inside, line :: rest =>
    let trimmed := edge line
    if trimmed.isEmpty then meetsOdd s sections inside rest
    else if sections && isOdd s.generatedCodeBegin then true
    else if sections && marks s.markers.opening trimmed then meetsOdd s sections true rest
    else if sections && inside then
      isOdd s.generatedCodeEnd ||
        meetsOdd s sections (!marks s.markers.closing trimmed) rest
    else match textBeforeOdd s.noiseMarkers with
      | some texts => !texts.any (marks · trimmed) || meetsOdd s sections inside rest
      | none => meetsOdd s sections inside rest

def sanitized (s : Settings τ) (sections : Bool) (raw : Raw) : Except Misuse Sanitized :=
  if s.meetsOdd sections false (Sanitizer.lines raw) then .error .wrongType
  else .ok (sanitize s.markers sections raw)

end Settings

end Playpen
