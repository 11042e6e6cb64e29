import Playpen.Docker.Choice
import Playpen.Docker.Cli
import Playpen.Docker.Api

namespace Playpen.Docker

open Utf8 (Bytes)

inductive Connection (τ : Type)
  | cli (c : Cli τ)
  | api (limit : τ) (workers : Workers)

namespace Connection

variable {τ : Type}

def choice : Connection τ → Choice
  | cli _ => .cli
  | api .. => .api

def limit : Connection τ → τ
  | cli c => c.limit
  | api limit _ => limit

def binary? : Connection τ → Option Value
  | cli c => some c.binary
  | api .. => none

end Connection

structure Rack (ω τ : Type) where
  outer : ω
  connections : List (Connection τ) := []

namespace Rack

variable {ω τ α : Type}

instance [Clock ω τ] : Clock (Rack ω τ) τ where
  now r := Clock.now r.outer
  wall r := Clock.wall r.outer

def outside (x : Call ω τ α) : Call (Rack ω τ) τ α :=
  Act.within Rack.outer (fun outer r => { r with outer }) x

end Rack

class Racked (σ : Type) (ω τ : outParam Type) where
  rack : σ → Rack ω τ
  setRack : Rack ω τ → σ → σ

instance {ω τ : Type} : Racked (Rack ω τ) ω τ where
  rack r := r
  setRack r _ := r

def Remote.onRack {ω τ : Type} (r : Remote ω τ) : Remote (Rack ω τ) τ where
  connect s := Rack.outside (r.connect s)
  create l spec := Rack.outside (r.create l spec)
  inject l id dest archive := Rack.outside (r.inject l id dest archive)
  exec l id command := Rack.outside (r.exec l id command)
  terminate l id user := Rack.outside (r.terminate l id user)
  isRunning l id := Rack.outside (r.isRunning l id)
  memoryUsage l id := Rack.outside (r.memoryUsage l id)
  remove l id := Rack.outside (r.remove l id)
  close l := Rack.outside (r.close l)

variable {ω τ : Type}

def Shell.onRack (shell : Shell ω τ) : Shell (Rack ω τ) τ where
  launch l r :=
    let (ending, outer) := shell.launch l r.outer
    (ending, { r with outer })
  which binary r := shell.which binary r.outer

def Client.onRack (client : Client ω τ) : Client (Rack ω τ) τ where
  fromEnv limit := Rack.outside (client.fromEnv limit)
  run arguments := Rack.outside (client.run arguments)
  lookUp id := Rack.outside (client.lookUp id)
  putArchive dest archive := Rack.outside (client.putArchive dest archive)
  execCreate id command := Rack.outside (client.execCreate id command)
  execStart id := Rack.outside (client.execStart id)
  execInspect id := Rack.outside (client.execInspect id)
  execRun cmd user := Rack.outside (client.execRun cmd user)
  stats := Rack.outside client.stats
  remove := Rack.outside client.remove
  ping := Rack.outside client.ping
  version := Rack.outside client.version
  close := Rack.outside client.close

structure Request (τ : Type) where
  name : Value
  binary : Value
  limit : Except Misuse τ

/-- The name that is meant: `docker-cli` for none, else without blanks around it and in lower case. -/
def normalized (name : Value) : Except (Failure τ) String :=
  if !name.truth then .ok "docker-cli"
  else match name with
    | .text s => .ok (Text.lower (Text.trim s))
    | _ => .error (.other .member none)

def binaryText (v : Value) : Except Misuse String := if v.truth then v.display else .ok "docker"

section

variable [Seconds τ] [Clock ω τ] (shell : Shell ω τ) (client : Client ω τ)

def register (c : Connection τ) : Effect (Rack ω τ) τ Link := fun env =>
  (.ok env.world.connections.length,
    { env with world := { env.world with connections := env.world.connections ++ [c] } })

def establish (r : Request τ) : Effect (Rack ω τ) τ Link := do
  let name ← Act.lift (normalized r.name)
  let limit ← Act.lift (r.limit.mapError Misuse.failure)
  match choice? name with
  | some .cli => do
    let binary ← Act.used (binaryText r.binary)
    register (.cli ⟨.text binary, limit⟩)
  | some .api => do
    Api.connect client.onRack limit
    register (.api limit {})
  | none => do
    let message ← Act.used (unsupported r.name)
    throw (.configuration message)

def request (s : Settings τ) : Request τ where
  name := s.controlPlane
  binary := s.dockerBinary
  limit := .ok (if Seconds.isZero s.controlTimeout then Seconds.ofNat 30 else s.controlTimeout)

def connection (l : Link) : Effect (Rack ω τ) τ (Connection τ) := do
  match ← Act.read fun env => env.world.connections[l]? with
  | some c => pure c
  | none => throw (.other .lookup none)

def setConnection (l : Link) (c : Connection τ) : Effect (Rack ω τ) τ Unit :=
  Act.modify fun env =>
    { env with world := { env.world with connections := env.world.connections.set l c } }

def wait (l : Link) (limit : τ) (w : Workers) (execId : Value) : Effect (Rack ω τ) τ Waited := do
  let (waited, w) ← Env.call (Api.await client.onRack execId w)
  setConnection l (.api limit w)
  pure waited

def plane : ControlPlane (Rack ω τ) τ where
  connect s := establish client (request s)
  create l spec := do
    match ← connection l with
    | .cli c => c.create shell.onRack spec
    | .api .. => Api.create client.onRack spec
  inject l id dest archive := do
    match ← connection l with
    | .cli c => c.inject shell.onRack id dest archive
    | .api .. => Api.inject client.onRack id dest archive
  exec l id command := do
    match ← connection l with
    | .cli c => c.exec shell.onRack id command
    | .api limit w => Api.exec client.onRack (wait client l limit w) id command
  terminate l id user := do
    match ← connection l with
    | .cli c => c.terminate shell.onRack id user
    | .api .. => Api.terminate client.onRack id user
  isRunning l id := do
    match ← connection l with
    | .cli c => c.isRunning shell.onRack id
    | .api .. => Api.isRunning client.onRack id
  memoryUsage l id := do
    match ← connection l with
    | .cli c => return .int (← c.memoryUsage shell.onRack id)
    | .api .. => return .int (← Api.memoryUsage client.onRack id)
  remove l id := do
    match ← connection l with
    | .cli c => c.remove shell.onRack id
    | .api .. => Api.remove client.onRack id
  close l := do
    match ← connection l with
    | .cli _ => pure ()
    | .api limit w => do
      Api.noteStuck w
      setConnection l (.api limit { w with shut := true })
      Env.call client.onRack.close

end

end Playpen.Docker
