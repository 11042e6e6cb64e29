import Playpen.Docker.Doctor
import Playpen.Execution.Engine
import Playpen.Diagnostic
import Playpen.Json.Printer

namespace Playpen

inductive Colour
  | plain
  | red
  | yellow
  | green
  | blue
deriving DecidableEq

def Colour.name : Colour → String
  | plain => ""
  | red => "red"
  | yellow => "yellow"
  | green => "green"
  | blue => "blue"

structure Styled where
  text : String
  colour : Colour := .plain
deriving DecidableEq

inductive Content
  | styled (s : Styled)
  | markup (text : String)
  | listing (code : String)
deriving DecidableEq

inductive Shown
  | content (c : Content)
  | panel (title : String) (border : Colour) (body : Content)
  | table (title : String) (columns : List String) (rows : List (List Content))
  | json (text : String)
deriving DecidableEq

namespace Shown

def isControl (c : Char) : Bool := [7, 8, 11, 12, 13].contains c.toNat

def styled (s : String) (colour : Colour := .plain) : Styled :=
  ⟨String.ofList (s.toList.filter (!isControl ·)), colour⟩

def text (s : String) (colour : Colour := .plain) : Shown := .content (.styled (styled s colour))

def markup (s : String) : Shown := .content (.markup s)

def textPanel (title : String) (border : Colour) (s : String) : Shown :=
  .panel title border (.styled (styled s))

def mebibytes (bytes : Int) : Except Misuse String :=
  match Double.ofQuotient (bytes < 0) (bytes.natAbs * Double.unit) (1024 * 1024) with
  | .infinite _ => .error .tooLarge
  | x => .ok (x.fixed 1)

def resultMap (r : ExecutionResult) : Value := .map [
  (.text "success", .bool r.success),
  (.text "output", .text r.output),
  (.text "generated_code", .text r.generatedCode),
  (.text "error", .text r.error),
  (.text "execution_time", .int r.milliseconds),
  (.text "memory_used", .int r.memoryUsed)]

def asJson (r : ExecutionResult) : Except Misuse Shown := do
  .ok (.json (← Json.print { indent := none } (resultMap r)))

def location (error : String) : List Shown :=
  match (Diagnostic.ofText error.toList).location with
  | none => []
  | some l =>
    let place := (styled (String.ofList (l.file ++ ':' :: l.line))).text
    [text (place ++ " " ++ String.ofList l.message)]

def listingPanel (code : String) : List Shown :=
  if code = "" then [] else [.panel "Generated Code" .blue (.listing code)]

def ofResult (r : ExecutionResult) : List Shown :=
  let outcome :=
    if r.success then [textPanel "Output" .green r.output]
    else textPanel "Error" .red r.error :: location r.error
  listingPanel r.generatedCode ++ outcome

def usage (r : ExecutionResult) : Except Misuse Shown := do
  .ok (markup s!"[dim]{r.milliseconds} ms, {← mebibytes r.memoryUsed} MB[/dim]")

def statusColour : Docker.Status → Colour
  | .pass => .green
  | .warn => .yellow
  | .fail => .red

def checkRow (c : Docker.Check) : List Content :=
  let colour := (statusColour c.status).name
  [.markup c.name, .markup s!"[{colour}]{c.status.name}[/{colour}]", .styled (styled c.detail),
    .styled (styled (c.recommendation.getD ""))]

def ofChecks (cs : List Docker.Check) : Shown :=
  .table "Sandbox Doctor" ["Check", "Status", "Detail", "Recommendation"] (cs.map checkRow)

section Tracing

variable {τ : Type} [Seconds τ]

def timingRow (entry : String × Tracer.Summary τ) : List Content :=
  [.markup entry.1, .markup (toString entry.2.count), .markup (Seconds.fixed 3 entry.2.average),
    .markup (Seconds.fixed 3 entry.2.greatest)]

def timings (t : Tracer τ) : List Shown :=
  match t.timingStats.mergeSort fun a b => decide (a.1 ≤ b.1) with
  | [] => []
  | stats =>
    [.table "Timings" ["Operation", "Count", "Avg (s)", "Max (s)"] (stats.map timingRow)]

def calls (t : Tracer τ) : List Shown :=
  let s := t.callStats
  if s.total = 0 then []
  else [markup (s!"[dim]{s.total} control-plane call(s), {s.failed} failed, " ++
    s!"{Seconds.fixed 3 s.time}s[/dim]")]

end Tracing

end Shown

end Playpen
