import Playpen.Sandbox.ControlPlane
import Playpen.Sandbox.Staging
/-!
Runners. A runner owns one isolated environment, or is attached to one that it never removes, and runs
submissions inside it. After a timeout the environment is suspect: it is looked at again before the
next run, and replaced if it is gone. A closed runner writes no source and runs no command.
-/
namespace Playpen

abbrev SessionKey : Type := Value

structure Runner (τ : Type) where
  key : SessionKey
  settings : Settings τ
  link : Link
  environment : Option EnvironmentId := none
  suspect : Bool := false
  closed : Bool := false

structure RunOutcome where
  output : String
  generatedCode : String
  exitCode : Int
  hasOutput : Bool
deriving DecidableEq

structure Seat (ω τ : Type) where
  runner : Runner τ
  env : Env ω τ

abbrev RunnerAct (ω τ α : Type) : Type := Act (Seat ω τ) (Failure τ) α

namespace Seat

variable {ω τ α : Type}

def effect (x : Effect ω τ α) : RunnerAct ω τ α :=
  Act.within Seat.env (fun env s => { s with env }) x

def update (f : Runner τ → Runner τ) : RunnerAct ω τ Unit :=
  Act.modify fun s => { s with runner := f s.runner }

def note (level : Level) (message : String → Except Misuse String) : RunnerAct ω τ Unit := do
  let s ← Act.get
  effect (Env.noteUsing level (s.runner.key.display >>= message))

end Seat

namespace Runner

open Act (used)
open Seat (effect update note)
open Utf8 (Bytes)

def killedExitCode : Int := 137

def owns {τ : Type} (r : Runner τ) : Bool := r.settings.ownsEnvironment

def isNameChar (c : Char) : Bool :=
  ('a' ≤ c && c ≤ 'z') || ('A' ≤ c && c ≤ 'Z') || ('0' ≤ c && c ≤ '9') || c = '_' || c = '.' || c = '-'

def slugChars : Bool → List Char → List Char
  | _, [] => []
  | inRun, c :: rest =>
    if isNameChar c then c :: slugChars false rest
    else if inRun then slugChars true rest
    else '-' :: slugChars true rest

def isEdge (c : Char) : Bool := c = '-' || c = '.'

def slug (key : List Char) : List Char :=
  let body := Text.trimBy isEdge (slugChars false key)
  (if body.isEmpty then "session".toList else body).take 32

def environmentName (containerPrefix key : String) (fresh : Nat) : String :=
  containerPrefix ++ "-" ++ String.ofList (slug key.toList) ++ "-" ++ Text.hexText 8 fresh

variable {ω τ : Type} [Seconds τ] [Clock ω τ] (plane : ControlPlane ω τ)

def nameParts (r : Runner τ) : Except Misuse (String × String) :=
  match r.key with
  | .text key => do
    let start ← r.settings.containerPrefix.display
    .ok (start, key)
  | _ => .error .wrongType

def spec (s : Settings τ) (name : String) : EnvironmentSpec where
  image := s.image
  name := .text name
  user := s.user
  workingDir := s.workingDir
  memoryLimit := s.memoryLimit
  memorySwap := s.memoryLimit
  networkEnabled := s.networkEnabled
  privileged := s.privileged

def createEnvironment : RunnerAct ω τ EnvironmentId := do
  let r ← Act.read Seat.runner
  let (start, key) ← used r.nameParts
  let name := environmentName start key (← effect Env.draw)
  let id ← effect (Env.timed "sandbox.create" (plane.create r.link (spec r.settings name)))
  note .info fun key => do
    let place ← shortId id
    let image ← r.settings.image.display
    pure s!"Created environment {place} for session '{key}' (image={image})"
  pure id

def start : RunnerAct ω τ Unit := do
  let r ← Act.read Seat.runner
  if r.environment.isSome then pure ()
  else if r.owns then
    let id ← createEnvironment plane
    update fun r => { r with environment := some id }
  else
    let id := r.settings.containerName
    let running ← effect (plane.isRunning r.link id)
    if !running then
      let name ← used id.display
      throw (.controlPlane s!"Environment '{name}' not found or not running" (some id))
    update fun r => { r with environment := some id }
    note .info fun key => do
      let name ← id.display
      pure s!"Session '{key}' attached to environment {name}"

def requireEnvironment : RunnerAct ω τ EnvironmentId := do
  let r ← Act.read Seat.runner
  if r.closed then
    let key ← used r.key.display
    throw (.controlPlane s!"Runner for session '{key}' is closed" none)
  if r.environment.isNone then start plane
  let r ← Act.read Seat.runner
  match r.environment with
  | some id => pure id
  | none => throw (.other .lookup none)

def inject (source : Raw) : RunnerAct ω τ Unit := do
  let id ← requireEnvironment plane
  let r ← Act.read Seat.runner
  let data ← Act.lift (Staging.sourceBytes source)
  let wall ← effect Env.wall
  let archive ← Act.lift
    (Staging.archive r.settings.sourceFilename (Staging.withNewline data) wall)
  effect (Env.timed "sandbox.inject" (plane.inject r.link id r.settings.workingDir archive))

def verifyIfSuspect : RunnerAct ω τ Unit := do
  let r ← Act.read Seat.runner
  match r.suspect, r.environment with
  | true, some id =>
    if ← effect (plane.isRunning r.link id) then
      update fun r => { r with suspect := false }
    else if !r.owns then
      let name ← used id.display
      throw (.controlPlane s!"Environment '{name}' stopped after a timeout" (some id))
    else
      update fun r => { r with environment := none }
      let place ← used (shortId id)
      effect (Env.note .warning s!"Environment {place} is gone after a timeout; recreating")
      try effect (plane.remove r.link id)
      catch e =>
        if e.isA .controlPlane then
          effect (Env.note .debug s!"Stale environment {place} not removed: {e.message}")
        else throw e
      let fresh ← createEnvironment plane
      update fun r => { r with environment := some fresh, suspect := false }
  | _, _ => pure ()

def abortRunaway (id : EnvironmentId) : RunnerAct ω τ Unit := do
  let r ← Act.read Seat.runner
  try effect (plane.terminate r.link id r.settings.user)
  catch e =>
    if e.isA .playground then
      let place ← used (shortId id)
      effect (Env.note .warning s!"Could not stop runaway processes in {place}: {e.message}")
    else throw e

def execAborting (id : EnvironmentId) (command : Command τ) : RunnerAct ω τ Capture := do
  let r ← Act.read Seat.runner
  try effect (Env.timed "sandbox.run" (plane.exec r.link id command))
  catch e =>
    if e.isA .timeout then
      update fun r => { r with suspect := true }
      note .warning fun key => .ok <|
        s!"Session '{key}' timed out after {Seconds.fixed 2 command.timeout}s; killing user processes"
      abortRunaway plane id
    throw e

def timeLimit (ceiling now : τ) : Option τ → Except (Failure τ) τ
  | none => .ok ceiling
  | some deadline =>
    let remaining := Seconds.sub deadline now
    if Seconds.le remaining Seconds.zero then .error (.timeout Seconds.zero)
    else .ok (Seconds.min ceiling remaining)

def classify (limit exitCode : Int) (s : Sanitized) : Except (Failure τ) RunOutcome :=
  let program := String.ofList s.program
  let diagnostics := if s.hasOutput then program else ""
  if exitCode = killedExitCode then
    if Scalar.isWritable (limit.fdiv Failure.mebibyte) then
      .error (.memoryLimit exitCode diagnostics limit)
    else .error Misuse.tooLong.failure
  else if exitCode ≠ 0 then .error (.process exitCode diagnostics)
  else .ok ⟨program, String.ofList s.generated, exitCode, s.hasOutput⟩

def run (sections : Bool) (deadline : Option τ) : RunnerAct ω τ RunOutcome := do
  verifyIfSuspect plane
  let id ← requireEnvironment plane
  let r ← Act.read Seat.runner
  let now ← effect Env.now
  let timeout ← Act.lift (timeLimit r.settings.maxExecutionTime now deadline)
  let template := if sections then r.settings.generatedCodeCommand else r.settings.runCommand
  let line := String.ofList (← used (r.settings.expand template))
  note .debug fun key => .ok s!"Session '{key}' running: {line}"
  let capture ← execAborting plane id ⟨.text line, r.settings.user, r.settings.workingDir, timeout⟩
  let sanitized ← used (r.settings.sanitized sections (.bytes capture.output))
  Act.lift (classify r.settings.memoryLimit capture.exitCode sanitized)

def toolchainVersion (timeout : Option τ) : RunnerAct ω τ String := do
  verifyIfSuspect plane
  let id ← requireEnvironment plane
  let r ← Act.read Seat.runner
  let line := String.ofList (← used (r.settings.expand r.settings.versionCommand))
  let timeout := match timeout with
    | some t => if Seconds.isZero t then r.settings.controlTimeout else t
    | none => r.settings.controlTimeout
  let capture ← effect
    (plane.exec r.link id ⟨.text line, r.settings.user, r.settings.workingDir, timeout⟩)
  let text := Text.trim (Stream.cleanText (.bytes capture.output))
  if capture.exitCode ≠ 0 then throw (.process capture.exitCode text)
  pure text

def validateToolchain : RunnerAct ω τ Unit := do
  let version ← toolchainVersion plane none
  if version = "" then throw (.process 0 "toolchain returned an empty version string")

def memoryUsage : RunnerAct ω τ Int := do
  let r ← Act.read Seat.runner
  match r.environment with
  | none => pure 0
  | some id =>
    try
      let value ← effect (plane.memoryUsage r.link id)
      let n ← used value.toInt
      pure (max 0 n)
    catch e =>
      if e.isA .playground then
        note .debug fun key => .ok s!"Memory sampling failed for session '{key}': {e.message}"
        pure 0
      else throw e

def close : RunnerAct ω τ Unit := do
  let r ← Act.read Seat.runner
  if r.closed then pure ()
  else
    update fun r => { r with closed := true }
    let removal : RunnerAct ω τ Unit :=
      match r.owns, r.environment with
      | true, some id => do
        update fun r => { r with environment := none }
        effect (plane.remove r.link id)
        note .info fun key => do
          let place ← shortId id
          pure s!"Removed environment {place} (session '{key}')"
      | _, _ => pure ()
    removal.ensure (effect (plane.close r.link))

def new (settings : Settings τ) (key : SessionKey) : Effect ω τ (Runner τ) := do
  let link ← plane.connect settings
  pure { key, settings, link }

def bringUp (r : Runner τ) : Effect ω τ (Runner τ) := fun env =>
  match start plane ⟨r, env⟩ with
  | (.ok _, seat) => (.ok seat.runner, seat.env)
  | (.error e, seat) => (Act.bind (plane.close r.link) fun _ => Act.fail e) seat.env

def «open» (settings : Settings τ) (key : SessionKey) : Effect ω τ (Runner τ) := do
  let r ← new plane settings key
  bringUp plane r

end Runner

end Playpen
