import Playpen.Number.Seconds
import Playpen.Text.Blank
import Playpen.Value
/-!
Failures and their causes. A cause determines the message for the log, the message for the user, the
hint that follows it, and the kinds of failure it counts as.
-/
namespace Playpen

inductive Kind
  | any
  | playground
  | configuration
  | sandbox
  | workspace
  | controlPlane
  | process
  | memoryLimit
  | timeout
  | engine
  | engineRequest
  | engineTransport
  | engineReply
  | engineMissing
  | system
  | permission
  | fileMissing
  | systemTimeout
  | runtime
  | value
  | type
  | overflow
  | member
  | lookup
  | index
  | encoding
  | decoding
  | nesting
deriving DecidableEq, Repr

namespace Kind

def lineage : Kind → List Kind
  | any => [any]
  | playground => [playground, any]
  | configuration => [configuration, playground, any]
  | sandbox => [sandbox, playground, any]
  | workspace => [workspace, sandbox, playground, any]
  | controlPlane => [controlPlane, sandbox, playground, any]
  | process => [process, sandbox, playground, any]
  | memoryLimit => [memoryLimit, process, sandbox, playground, any]
  | timeout => [timeout, sandbox, playground, any]
  | engine => [engine, any]
  | engineRequest => [engineRequest, system, any]
  | engineTransport => [engineTransport, engineRequest, system, any]
  | engineReply => [engineReply, engineTransport, engineRequest, system, engine, any]
  | engineMissing => [engineMissing, engineReply, engineTransport, engineRequest, system, engine, any]
  | system => [system, any]
  | permission => [permission, system, any]
  | fileMissing => [fileMissing, system, any]
  | systemTimeout => [systemTimeout, system, any]
  | runtime => [runtime, any]
  | value => [value, any]
  | type => [type, any]
  | overflow => [overflow, any]
  | member => [member, any]
  | lookup => [lookup, any]
  | index => [index, any]
  | encoding => [encoding, value, any]
  | decoding => [decoding, value, any]
  | nesting => [nesting, runtime, any]

def isA (k other : Kind) : Bool := (lineage k).contains other

end Kind

inductive Failure (τ : Type)
  | playground (message : String)
  | configuration (message : String)
  | sandbox (message : String)
  | workspace (detail : String)
  | controlPlane (message : String) (environment : Option Value)
  | process (exitCode : Int) (output : String)
  | memoryLimit (exitCode : Int) (output : String) (limit : Int)
  | timeout (limit : τ)
  /-- Any other failure; without a message when it is of this program's own making. -/
  | other (kind : Kind) (message : Option String)
deriving DecidableEq

namespace Failure

variable {τ : Type} [Seconds τ]

def kind : Failure τ → Kind
  | playground _ => .playground
  | configuration _ => .configuration
  | sandbox _ => .sandbox
  | workspace _ => .workspace
  | controlPlane .. => .controlPlane
  | process .. => .process
  | memoryLimit .. => .memoryLimit
  | timeout _ => .timeout
  | other kind _ => kind

def isA (e : Failure τ) (k : Kind) : Bool := e.kind.isA k

def processDetail (exitCode : Int) (output : String) : String :=
  let text := Text.trim output
  if text = "" then s!"process exited with status {exitCode}" else text

def mebibyte : Int := 1024 * 1024

def memoryDetail (output : String) (limit : Int) : String :=
  let size := if limit = 0 then "" else s!" ({limit.fdiv mebibyte} MB)"
  let text := Text.trim output
  "Program was killed: memory limit exceeded" ++ size ++ (if text = "" then "" else "\n" ++ text)

def message : Failure τ → String
  | playground m | configuration m | sandbox m | controlPlane m _ => m
  | workspace detail => "Workspace I/O failed: " ++ detail
  | process exitCode output => processDetail exitCode output
  | memoryLimit _ output limit => memoryDetail output limit
  | timeout limit => s!"Execution timed out after {Seconds.general limit}s"
  | other _ m => m.getD ""

def userMessage : Failure τ → String
  | configuration _ => "The playground is misconfigured."
  | workspace _ => "Could not prepare the sandbox workspace."
  | controlPlane .. => "The sandbox is currently unavailable."
  | process exitCode output => processDetail exitCode output
  | memoryLimit _ output limit => memoryDetail output limit
  | timeout limit =>
    s!"Your program took longer than {Seconds.general limit} seconds and was stopped."
  | _ => "Something went wrong while running your code."

def hint : Failure τ → String
  | configuration _ => "Check the configuration file and environment variables."
  | workspace _ | controlPlane .. => "Try again in a moment."
  | process .. => "Fix the reported problem and run again."
  | memoryLimit .. => "Reduce the memory your program uses."
  | timeout _ => "Check for infinite loops or reduce the amount of work."
  | _ => "Please try again."

def forUser (e : Failure τ) : String :=
  if e.isA .playground then e.userMessage ++ "\n\n" ++ e.hint else e.message

end Failure

def Misuse.kind : Misuse → Kind
  | wrongType => .type
  | badText | notANumber | tooLong => .value
  | tooLarge => .overflow
  | tooDeep => .nesting

def Misuse.failure {τ : Type} (m : Misuse) : Failure τ := .other m.kind none

def Double.NotWhole.failure {τ : Type} : Double.NotWhole → Failure τ
  | nan => .other .value none
  | infinite => .other .overflow none

end Playpen
