import Playpen.Config.Basic
import Playpen.Docker.Choice
import Playpen.Sandbox.Settings
/-!
Which configurations the sandbox can run with. The checks come in a fixed order; the first that fails
gives the message, and a value of the wrong type for a check is a failure of its own.
-/
namespace Playpen.Config

abbrev Fault : Type := Failure Double

def reject (message : String) : Except Fault Unit := .error (.configuration message)

def used {α : Type} (r : Except Misuse α) : Except Fault α := r.mapError Misuse.failure

def checkPositive (name : String) (v : Value) : Except Fault Unit := do
  if ← used v.atMostZero then reject s!"{name} must be positive"

def hasSlash : Value → Except Misuse Bool
  | .text s => .ok (s.toList.contains '/')
  | .list items | .tuple items => .ok (items.any (· = .text "/"))
  | .set items => .ok (items.any (· = .text "/"))
  | .map entries => .ok (entries.any (·.1 = .text "/"))
  | _ => .error .wrongType

def namesControlPlane : Value → Bool
  | .text s => (Docker.choice? s).isSome
  | _ => false

def validate (c : Config) : Except Fault Unit := do
  let s := c.sandbox
  if !namesControlPlane s.controlPlane then
    reject (← used (Docker.unsupported s.controlPlane))
  checkPositive "sandbox.memory_limit_mb" s.memoryLimit
  checkPositive "sandbox.max_execution_time_seconds" s.maxExecutionTime
  checkPositive "sandbox.control_timeout_seconds" s.controlTimeout
  if !s.defaultSessionKey.truth then reject "sandbox.default_session_key must not be empty"
  if !s.containerName.truth && !s.image.truth then
    reject "Either sandbox.image or sandbox.container_name is required"
  if ← used (hasSlash c.toolchain.sourceFilename) then
    reject "toolchain.source_filename must be a bare file name"
  checkPositive "max_code_size" c.maxCodeSize

def Sandbox.memoryBytes (s : Sandbox) : Except Misuse Int := do
  let megabytes ← s.memoryLimit.toInt
  pure (megabytes * 1024 * 1024)

def members : Value → Except Misuse (List Value)
  | .list items | .tuple items => .ok items
  | .set items => .ok (items.map .scalar)
  | .text s => .ok (s.toList.map fun c => .text (String.ofList [c]))
  | .map entries => .ok (entries.map fun (k, _) => .scalar k)
  | .bytes data => .ok (data.map fun b => .int b.toNat)
  | _ => .error .wrongType

def settings (c : Config) : Except Misuse (Settings Double) := do
  let s := c.sandbox
  let t := c.toolchain
  let memoryLimit ← s.memoryBytes
  let maxExecutionTime ← s.maxExecutionTime.toDouble
  let controlTimeout ← s.controlTimeout.toDouble
  let noiseMarkers ← members t.noiseMarkers
  pure {
    image := s.image
    memoryLimit, maxExecutionTime, controlTimeout, noiseMarkers
    workingDir := s.workingDir
    compiler := t.compiler
    user := s.user
    containerName := if s.containerName.truth then s.containerName else .null
    containerPrefix := s.containerPrefix
    controlPlane := s.controlPlane
    dockerBinary := s.dockerBinary
    networkEnabled := s.networkEnabled
    privileged := s.privileged
    sourceFilename := t.sourceFilename
    runCommand := t.runCommand
    generatedCodeCommand := t.generatedCodeCommand
    versionCommand := t.versionCommand
    generatedCodeBegin := t.generatedCodeBegin
    generatedCodeEnd := t.generatedCodeEnd }

end Playpen.Config
