import Playpen.Docker.Shell
import Playpen.Docker.Size
import Playpen.Files.Tree

namespace Playpen.Docker

open Utf8 (Bytes)

structure Cli (τ : Type) where
  binary : Value := .text "docker"
  limit : τ

namespace Cli

variable {ω τ : Type} [Seconds τ] [Clock ω τ] (shell : Shell ω τ)

def texts (words : List String) : List Value := words.map .text

def runArgs (c : Cli τ) (s : EnvironmentSpec) : Except Misuse (List Value) := do
  let memory ← (Value.int s.memoryLimit).display
  let swap ← (Value.int s.memorySwap).display
  pure (c.binary :: texts ["run", "--detach", "--name"] ++ [s.name, .text "--user", s.user,
    .text "--workdir", s.workingDir] ++ texts ["--memory", memory, "--memory-swap", swap] ++
    (if s.networkEnabled.truth then [] else texts ["--network", "none"]) ++
    (if s.privileged.truth then texts ["--privileged"] else []) ++ s.image :: s.command)

def execArgs (c : Cli τ) (id : EnvironmentId) (command : Command τ) : List Value :=
  [c.binary, .text "exec", .text "--user", command.user, .text "--workdir", command.workingDir, id,
    .text "bash", .text "-c", command.line]

def missing (c : Cli τ) : Failure τ :=
  match c.binary.display with
  | .ok name => .configuration s!"Docker CLI not found: {name}"
  | .error misuse => misuse.failure

def complaint? (error output : Option Bytes) : Option String :=
  let bytes := match error with
    | some (b :: bs) => some (b :: bs)
    | _ => output
  bytes.map fun bs => Text.trim (Utf8.lossy bs)

def exitDetail (status : Int) (output error : Option Bytes) : String :=
  let text := (complaint? error output).getD ""
  if text = "" then s!"exit code {status}" else text

def ask (c : Cli τ) (args : List Value) (operation : String) (id : Option EnvironmentId)
    (input : Option Bytes) (allowed : List Int) : Effect ω τ (Option Bytes) := do
  let start ← Env.now
  match ← shell.run { words := args, timeout := c.limit, input } with
  | .failed cause => throw (if cause.isA .fileMissing then c.missing else cause)
  | .timedOut =>
    Env.traceSince operation id start (some "timeout")
    throw (.controlPlane s!"docker {operation} timed out after {Seconds.general c.limit}s" id)
  | .exited status output error =>
    if allowed.contains status then
      Env.traceSince operation id start none
      pure output
    else
      let detail := exitDetail status output error
      Env.traceSince operation id start (some detail)
      throw (.controlPlane s!"docker {operation} failed: {detail}" id)

def present (text : Option String) : Except (Failure τ) String :=
  match text with
  | some s => .ok s
  | none => .error (.other .member none)

def decoded (output : Option Bytes) : Except (Failure τ) String := present (output.map Utf8.lossy)

def create (c : Cli τ) (s : EnvironmentSpec) : Effect ω τ EnvironmentId := do
  let words ← Act.used (c.runArgs s)
  let output ← c.ask shell words "create" none none [0]
  let id := Text.trim (← Act.lift (decoded output))
  if id = "" then throw (.controlPlane "docker run returned no container id" none)
  pure (.text id)

def inject (c : Cli τ) (id : EnvironmentId) (dest : Value) (archive : Bytes) : Effect ω τ Unit := do
  let place ← Act.used id.display
  let dest ← Act.used dest.display
  let _ ← c.ask shell (c.binary :: texts ["cp", "-", place ++ ":" ++ dest]) "inject" (some id)
    (some archive) [0]

def exec (c : Cli τ) (id : EnvironmentId) (command : Command τ) : Effect ω τ Capture := do
  let start ← Env.now
  let launch := { words := c.execArgs id command, timeout := command.timeout, merged := true }
  match ← shell.run launch with
  | .timedOut =>
    Env.traceSince "exec" (some id) start (some "timeout")
    throw (.timeout command.timeout)
  | .failed cause =>
    if cause.isA .fileMissing then throw c.missing
    else if cause.isA .system then
      Env.traceSince "exec" (some id) start (some cause.message)
      throw (.controlPlane s!"docker exec failed: {cause.message}" (some id))
    else throw cause
  | .exited status output _ =>
    Env.traceSince "exec" (some id) start none
    pure ⟨status, output.getD []⟩

def terminate (c : Cli τ) (id : EnvironmentId) (user : Value) : Effect ω τ Unit := do
  let _ ← c.ask shell
    (c.binary :: texts ["exec", "--user", "root"] ++ id :: texts ["pkill", "-KILL", "-u"] ++ [user])
    "terminate" (some id) none [0, 1]

def isRunning (c : Cli τ) (id : EnvironmentId) : Effect ω τ Bool := do
  let r ← Act.outcome (c.ask shell
    (c.binary :: texts ["inspect", "--format", "\x7b\x7b.State.Running\x7d\x7d"] ++ [id]) "inspect"
    (some id) none [0])
  match r with
  | .ok output =>
    let text ← Act.lift (decoded output)
    pure (Text.lower (Text.trim text) == "true")
  | .error e => if e.isA .controlPlane then pure false else throw e

def memoryUsage (c : Cli τ) (id : EnvironmentId) : Effect ω τ Int := do
  let output ← c.ask shell
    (c.binary :: texts ["stats", "--no-stream", "--format", "\x7b\x7b.MemUsage\x7d\x7d"] ++ [id])
    "stats" (some id) none [0]
  let text ← Act.lift (decoded output)
  let used := String.ofList (text.toList.takeWhile (· ≠ '/'))
  Act.lift ((Size.bytes used).mapError Double.NotWhole.failure)

def remove (c : Cli τ) (id : EnvironmentId) : Effect ω τ Unit := do
  let _ ← c.ask shell (c.binary :: texts ["rm", "--force"] ++ [id]) "remove" (some id) none [0]

def textOf (stream : Option Bytes) : Except (Failure τ) (Option String) :=
  match stream.map Tree.textOf? with
  | none => .ok none
  | some (some text) => .ok (some (String.ofList text))
  | some none => .error (.other .decoding none)

def checkHealth (binary : Value) (limit : τ) : Effect ω τ (Bool × String) := do
  if !(← shell.found binary) then return (false, "docker CLI not found")
  let launch := { words := binary :: texts ["info", "--format", "\x7b\x7b.ServerVersion\x7d\x7d"],
                  timeout := limit, text := true }
  match ← shell.run launch with
  | .failed cause =>
    if cause.isA .fileMissing then return (false, "docker CLI not found") else throw cause
  | .timedOut => return (false, "docker check timed out")
  | .exited status output error =>
    let output ← Act.lift (textOf output)
    let error ← Act.lift (textOf error)
    if status ≠ 0 then
      let detail := Text.trim (← Act.lift (present (if error.getD "" = "" then output else error)))
      return (false, if detail = "" then "docker daemon unavailable" else detail)
    else
      let version := Text.trim (← Act.lift (present output))
      let shown := if version = "" then "unknown" else version
      return (true, s!"docker daemon ready (server {shown})")

def imageAvailable (image binary : Value) (limit : τ) : Effect ω τ Bool := do
  let launch := { words := binary :: texts ["image", "inspect"] ++ [image], timeout := limit, text := true }
  match ← shell.run launch with
  | .failed cause => if cause.isA .fileMissing then pure false else throw cause
  | .timedOut => pure false
  | .exited status output error =>
    let _ ← Act.lift (textOf output)
    let _ ← Act.lift (textOf error)
    pure (status == 0)

end Cli

end Playpen.Docker
