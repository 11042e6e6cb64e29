import Playpen.Docker.Shell
/-!
The control plane that talks to the engine through its client library. The call that waits for a
command to end runs on one of a few workers, so that it can be given up after a timeout; a worker given
up stays blocked.
-/
namespace Playpen.Docker

open Utf8 (Bytes)

inductive Waited
  | output (bytes : Option Bytes)
  | blocked

structure RunArguments where
  image : Value
  command : List Value
  name : Value
  user : Value
  workingDir : Value
  memoryLimit : Int
  memorySwap : Int
  networkMode : Option String
  privileged : Value
  detach : Bool

def RunArguments.of (s : EnvironmentSpec) : RunArguments where
  image := s.image
  command := s.command
  name := s.name
  user := s.user
  workingDir := s.workingDir
  memoryLimit := s.memoryLimit
  memorySwap := s.memorySwap
  networkMode := if s.networkEnabled.truth then none else some "none"
  privileged := s.privileged
  detach := true

structure Client (ω τ : Type) where
  fromEnv : Int → Call ω τ Unit
  run : RunArguments → Call ω τ EnvironmentId
  lookUp : EnvironmentId → Call ω τ Value
  putArchive : Value → Bytes → Call ω τ Value
  execCreate : EnvironmentId → Command τ → Call ω τ Value
  execStart : Value → Call ω τ Waited
  execInspect : Value → Call ω τ Value
  execRun : List Value → String → Call ω τ Value
  stats : Call ω τ Value
  remove : Call ω τ Unit
  ping : Call ω τ Unit
  version : Call ω τ Value
  close : Call ω τ Unit

namespace Client

variable {ω τ α : Type}

def noAnswer : Call ω τ α := Act.fail (.other .engine (some "the engine cannot be reached"))

def unreachable : Client ω τ where
  fromEnv _ := noAnswer
  run _ := noAnswer
  lookUp _ := noAnswer
  putArchive _ _ := noAnswer
  execCreate _ _ := noAnswer
  execStart _ := noAnswer
  execInspect _ := noAnswer
  execRun _ _ := noAnswer
  stats := noAnswer
  remove := noAnswer
  ping := noAnswer
  version := noAnswer
  close := pure ()

end Client

structure Workers where
  size : Nat := 4
  stuck : Nat := 0
  shut : Bool := false
deriving DecidableEq

namespace Api

variable {ω τ : Type} [Seconds τ] [Clock ω τ] (client : Client ω τ)

def clientLimit (limit : τ) : Except (Failure τ) Int :=
  if Seconds.lt (Seconds.ofNat 1) limit then
    (Seconds.truncate limit).mapError Double.NotWhole.failure
  else .ok 1

def connect (limit : τ) : Effect ω τ Unit := do
  let whole ← Act.lift (clientLimit limit)
  try Env.call (client.fromEnv whole)
  catch e =>
    if e.isA .engine then throw (.controlPlane s!"Failed to connect to Docker: {e.message}" none)
    else throw e

def reporting {α : Type} (x : Call ω τ α)
    (report : Failure τ → Effect ω τ (Failure τ)) : Effect ω τ α := do
  try Env.call x
  catch e =>
    if e.isA .engine then
      let f ← report e
      throw f
    else throw e

def fault (what : String) (id : Option EnvironmentId) (e : Failure τ) : Failure τ :=
  .controlPlane (what ++ e.message) id

def look (id : EnvironmentId) : Effect ω τ Value :=
  reporting (client.lookUp id) fun e =>
    pure (if e.isA .engineMissing then .controlPlane "Environment not found" (some id)
      else fault "Failed to look up environment: " (some id) e)

def traced (operation : String) (id : Option EnvironmentId) (start : τ) (what : String) (e : Failure τ) :
    Effect ω τ (Failure τ) := do
  Env.traceSince operation id start (some e.message)
  pure (fault what id e)

def create (s : EnvironmentSpec) : Effect ω τ EnvironmentId := do
  let start ← Env.now
  let id ← reporting (client.run (.of s)) (traced "create" none start "Failed to create environment: ")
  Env.traceSince "create" (some id) start none
  pure id

def inject (id : EnvironmentId) (dest : Value) (archive : Bytes) : Effect ω τ Unit := do
  let start ← Env.now
  let _ ← look client id
  let accepted ← reporting (client.putArchive dest archive)
    (traced "inject" (some id) start "Failed to copy source: ")
  if !accepted.truth then
    Env.traceSince "inject" (some id) start (some "archive rejected")
    throw (.controlPlane "Environment rejected the source archive" (some id))
  Env.traceSince "inject" (some id) start none

/-- Starts a command on a worker and waits for it; without a free worker it is never started. -/
def await (execId : Value) (w : Workers) : Call ω τ (Waited × Workers) := do
  if w.shut then throw (.other .runtime none)
  else if w.size ≤ w.stuck then pure (.blocked, { w with stuck := w.stuck + 1 })
  else
    match ← client.execStart execId with
    | .blocked => pure (.blocked, { w with stuck := w.stuck + 1 })
    | done => pure (done, w)

def member? (name : String) : Value → Except (Failure τ) (Option Value)
  | .map entries => .ok (Value.find? name entries)
  | _ => .error (.other .member none)

def exitCode : Option Value → Except (Failure τ) Int
  | none | some .null => .ok (-1)
  | some v => v.toInt.mapError Misuse.failure

def exec (wait : Value → Effect ω τ Waited) (id : EnvironmentId) (command : Command τ) :
    Effect ω τ Capture := do
  let start ← Env.now
  let execId ← reporting (client.execCreate id command) fun e =>
    if e.isA .engineMissing then pure (.controlPlane "Environment not found" (some id))
    else traced "exec" (some id) start "Failed to start command: " e
  match ← Act.outcome (wait execId) with
  | .error e =>
    if e.isA .systemTimeout then
      Env.traceSince "exec" (some id) start (some "timeout")
      throw (.timeout command.timeout)
    else if e.isA .engine then
      let f ← traced "exec" (some id) start "Command failed to run: " e
      throw f
    else throw e
  | .ok .blocked =>
    Env.traceSince "exec" (some id) start (some "timeout")
    throw (.timeout command.timeout)
  | .ok (.output output) =>
    let answer ← reporting (client.execInspect execId) fun e =>
      pure (fault "Failed to inspect command: " (some id) e)
    let code ← Act.lift (member? "ExitCode" answer)
    Env.traceSince "exec" (some id) start none
    let code ← Act.lift (exitCode code)
    pure ⟨code, output.getD []⟩

def blockedNote : String := "a timed-out exec worker may stay blocked"

def isNumber (v : Value) (n : Int) : Bool := Value.sameKey v (.int n)

def terminate (id : EnvironmentId) (user : Value) : Effect ω τ Unit := do
  let _ ← look client id
  let status ← reporting (client.execRun [.text "pkill", .text "-KILL", .text "-u", user] "root")
    fun e => do
      let place ← Act.used (shortId id)
      Env.note .warning s!"pkill failed in {place}; {blockedNote}: {e.message}"
      pure (fault "Failed to stop processes: " (some id) e)
  if !isNumber status 0 && !isNumber status 1 then
    let status ← Act.used status.display
    let place ← Act.used (shortId id)
    Env.note .warning s!"pkill exited {status} in {place}; {blockedNote}"
    throw (.controlPlane s!"Failed to stop processes: pkill exited {status}" (some id))

def isRunning (id : EnvironmentId) : Effect ω τ Bool := do
  match ← Act.outcome (Env.call (client.lookUp id)) with
  | .ok status => pure (decide (status = .text "running"))
  | .error e =>
    if e.isA .engineMissing then pure false
    else if e.isA .engine then throw (fault "Failed to inspect environment: " (some id) e)
    else throw e

def usage (answer : Value) : Except (Failure τ) Int := do
  match ← member? "memory_stats" answer with
  | some memory =>
    if !memory.truth then pure 0
    else match ← member? "usage" memory with
      | some v => if v.truth then v.toInt.mapError Misuse.failure else pure 0
      | none => pure 0
  | none => pure 0

def memoryUsage (id : EnvironmentId) : Effect ω τ Int := do
  let _ ← look client id
  let answer ← reporting client.stats fun e =>
    pure (fault "Failed to read stats: " (some id) e)
  Act.lift (usage answer)

def remove (id : EnvironmentId) : Effect ω τ Unit := do
  let start ← Env.now
  let _ ← look client id
  reporting client.remove fun e =>
    if e.isA .engineMissing then pure (.controlPlane "Environment already removed" (some id))
    else traced "remove" (some id) start "Failed to remove environment: " e
  Env.traceSince "remove" (some id) start none

def noteStuck (w : Workers) : Effect ω τ Unit := do
  if 0 < w.stuck then
    Env.note .warning s!"Abandoning {w.stuck} exec worker(s) still blocked in exec_start"

def checkHealth : Effect ω τ (Bool × String) := do
  let unreachable (e : Failure τ) : Bool × String :=
    (false, s!"docker API unreachable: {e.message}")
  match ← Act.outcome (Env.call (client.fromEnv 3)) with
  | .error e => if e.isA .engine then pure (unreachable e) else throw e
  | .ok _ =>
    let asked : Effect ω τ Value := do
      Env.call client.ping
      let answer ← Env.call client.version
      let version ← Act.lift (member? "Version" answer)
      pure (version.getD (.text "unknown"))
    match ← asked.outcome.ensure (Env.call client.close) with
    | .error e => if e.isA .engine then pure (unreachable e) else throw e
    | .ok version =>
      let version ← Act.used version.display
      pure (true, s!"docker API ready (server {version})")

end Api

end Playpen.Docker
