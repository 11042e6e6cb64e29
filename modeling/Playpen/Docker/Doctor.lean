import Playpen.Docker.Registry

namespace Playpen.Docker

inductive Status
  | pass
  | warn
  | fail
deriving DecidableEq, Repr

def Status.name : Status → String
  | pass => "pass"
  | warn => "warn"
  | fail => "fail"

structure Check where
  name : String
  status : Status
  detail : String
  recommendation : Option String := none
deriving DecidableEq

structure Health where
  choice : Choice
  available : Bool
  detail : String
deriving DecidableEq

abbrev Attributes : Type := String → Option Value

namespace Doctor

variable {ω τ : Type} [Seconds τ] [Clock ω τ] (shell : Shell ω τ) (client : Client ω τ)

def tenths (n : Nat) : τ := Seconds.divNat (Seconds.ofNat n) 10

def healthLimit : τ := tenths 25

def imageLimit : τ := Seconds.ofNat 3

def health (binary : Value) : Effect (Rack ω τ) τ (List Health) := do
  let (cli, cliDetail) ← Cli.checkHealth shell.onRack binary healthLimit
  let (api, apiDetail) ← Api.checkHealth client.onRack
  pure [⟨.cli, cli, cliDetail⟩, ⟨.api, api, apiDetail⟩]

def setting (a : Attributes) (name : String) (fallback : Value) : Value := (a name).getD fallback

def textOr (v : Value) (fallback : String) : Except Misuse String :=
  if v.truth then v.display else .ok fallback

def timeLimit (a : Attributes) : Except Misuse Double :=
  let usual : Value := .float (Double.ofInt 30)
  let v := setting a "control_timeout_seconds" usual
  (if v.truth then v else usual).toDouble

def controlPlaneName (a : Attributes) : Except Misuse String :=
  (textOr (setting a "control_plane" (.text "docker-cli")) "docker-cli").map Text.lower

def binary (a : Attributes) : Except Misuse String :=
  textOr (setting a "docker_binary" (.text "docker")) "docker"

def configuredCheck (name : String) : Check :=
  match choice? name with
  | none =>
    { name := "configured_control_plane", status := .fail
      detail := s!"Unsupported control plane '{name}'."
      recommendation := some s!"Use one of: {supportedText}." }
  | some _ =>
    { name := "configured_control_plane", status := .pass
      detail := s!"Control plane set to '{name}'." }

def daemonCheck (healthy : Bool) (detail : String) : Check :=
  { name := "docker_daemon", status := if healthy then .pass else .fail, detail
    recommendation := if healthy then none else some "Start Docker and retry 'yz-playground doctor'." }

def attachedCheck (container : String) (running : Bool) : Check :=
  { name := "attached_environment", status := if running then .pass else .fail
    detail := s!"Container '{container}' is " ++ (if running then "running." else "not running.")
    recommendation := if running then none else some s!"Start it with: docker start {container}" }

def imageCheck (image : String) (present : Bool) : Check :=
  { name := "sandbox_image", status := if present then .pass else .warn
    detail := s!"Image '{image}' is " ++
      (if present then "available locally." else "not present locally.")
    recommendation := if present then none else some s!"Build or pull the image: {image}" }

def networkCheck (enabled : Bool) : Check :=
  { name := "network_policy", status := if enabled then .warn else .pass
    detail := if enabled then "Environment networking is enabled."
      else "Environment networking is disabled."
    recommendation := if enabled then
      some "Set sandbox.network_enabled=false unless submissions need network access." else none }

def privilegeCheck (privileged : Bool) : Check :=
  { name := "privilege_policy", status := if privileged then .warn else .pass
    detail := if privileged then "Environments run privileged." else "Environments run unprivileged."
    recommendation := if privileged then
      some "Only enable sandbox.privileged when the in-environment isolation layer needs it."
      else none }

def toolchainCheck : Except (Failure τ) String → Check
  | .ok version => { name := "toolchain", status := .pass, detail := version }
  | .error e =>
    { name := "toolchain", status := .fail
      detail := s!"Toolchain version probe failed: {e.message}"
      recommendation := some "Check toolchain.compiler and that the image ships the compiler." }

def request (a : Attributes) (name : Value) (limit : Except Misuse τ) : Request τ where
  name
  binary := setting a "docker_binary" (.text "docker")
  limit

def attached (a : Attributes) (name : String) (container : Value) (limit : Except Misuse τ) :
    Effect (Rack ω τ) τ Check := do
  let link ← establish client (request a (.text name) limit)
  let look : Effect (Rack ω τ) τ Bool := do
    try (plane shell client).isRunning link container
    catch e => if e.isA .playground then pure false else throw e
  let running ← look.ensure ((plane shell client).close link)
  let container ← Act.used container.display
  pure (attachedCheck container running)

def environmentCheck (a : Attributes) (name binary : String) (limit : Except Misuse τ) :
    Effect (Rack ω τ) τ Check := do
  let container := setting a "container_name" .null
  if container.truth then attached shell client a name container limit
  else
    let image ← Act.used (textOr (setting a "image" (.text "")) "")
    let present ← Cli.imageAvailable shell.onRack (.text image) (.text binary) imageLimit
    pure (imageCheck image present)

def daemonHealth (choice : Choice) (binary : String) : Effect (Rack ω τ) τ (Bool × String) :=
  match choice with
  | .cli => Cli.checkHealth shell.onRack (.text binary) healthLimit
  | .api => Api.checkHealth client.onRack

def examine (a : Attributes) (limit : Except Misuse τ) :
    Effect (Rack ω τ) τ (List Check × Bool) := do
  let name ← Act.used (controlPlaneName a)
  let binary ← Act.used (binary a)
  match choice? name with
  | none => pure ([configuredCheck name], false)
  | some choice => do
    let (healthy, detail) ← daemonHealth shell client choice binary
    let leading := [configuredCheck name, daemonCheck healthy detail]
    if !healthy then pure (leading, false)
    else
      let environment ← environmentCheck shell client a name binary limit
      pure (leading ++ [environment,
        networkCheck (setting a "network_enabled" (.bool false)).truth,
        privilegeCheck (setting a "privileged" (.bool false)).truth], true)

def run {σ : Type} (part : σ → Env (Rack ω τ) τ) (put : Env (Rack ω τ) τ → σ → σ)
    (a : Attributes) (limit : Except Misuse τ) (probe : Option (Act σ (Failure τ) String)) :
    Act σ (Failure τ) (List Check) := do
  let (checks, complete) ← Act.within part put (examine shell client a limit)
  match complete, probe with
  | true, some probe => do
    match ← Act.outcome probe with
    | .ok version => pure (checks ++ [toolchainCheck (.ok version : Except (Failure τ) String)])
    | .error e =>
      if e.isA .playground then pure (checks ++ [toolchainCheck (.error e)]) else throw e
  | _, _ => pure checks

end Doctor

end Playpen.Docker
