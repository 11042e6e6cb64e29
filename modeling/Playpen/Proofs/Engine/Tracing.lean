import Playpen.Proofs.Docker.Tracing
import Playpen.Proofs.Engine.History
import Playpen.Proofs.Engine.Likeness
import Playpen.Proofs.Plane.Scripted

namespace Playpen

open Act (Agree InStep)
open Likeness (ofTracing)

variable {ω τ α : Type}

inductive Answer
  | result (r : ExecutionResult)
  | version (text : String)
  | runner (number : Option Nat)
  | done
deriving DecidableEq

section

variable [Seconds τ] [Clock ω τ] (plane : ControlPlane ω τ) (settings : Settings τ) (e : Engine τ)

def Operation.ask (op : Operation ω τ) : SiteAct (Recorded ω τ) τ Answer :=
  let factory := Runner.open plane.recorded settings
  match op with
  | .execute sub => return .result (← e.execute plane.recorded factory sub)
  | .toolchainVersion => return .version (← e.toolchainVersion plane.recorded factory)
  | .validateToolchain => do
    e.validateToolchain plane.recorded factory
    return .done
  | .acquire key => return .runner (← Engine.acquire factory key)
  | .get key => return .runner (← Pool.get? key)
  | .release key => do
    Pool.release plane.recorded key
    return .done
  | .shutdown => do
    Engine.shutdown plane.recorded
    return .done
  | .outside change => do
    Act.modify fun s =>
      { s with env := { s.env with world := { s.env.world with world := change s.env.world.world } } }
    return .done

/-- A history as its callers see it: what each of them is told, and what is left in the end. -/
def dialogue : List (Operation ω τ) → Site (Recorded ω τ) τ →
    List (Except (Failure τ) Answer) × Site (Recorded ω τ) τ
  | [], s => ([], s)
  | op :: ops, s =>
    let (answer, next) := op.ask plane settings e s
    let (answers, last) := dialogue ops next
    (answer :: answers, last)

def Site.initial (env : Env ω τ) : Site (Recorded ω τ) τ := { env := { env with world := ⟨env.world, []⟩ } }

end

def Operation.Keeps (I : ω → Prop) : Operation ω τ → Prop
  | .outside change => ∀ w, I w → I (change w)
  | _ => True

theorem Operation.keeps_true (op : Operation ω τ) : op.Keeps fun _ => True := by
  cases op with
  | outside change => exact fun _ _ => trivial
  | _ => trivial

-- Shutting down makes no connection, so there is nothing to bind.
theorem Pool.shutdown_bound [Seconds τ] (plane : ControlPlane ω τ) (settings : Settings τ) :
    shutdown (plane.bound settings).recorded = shutdown plane.recorded := by
  have hall (keys : List SessionKey) (failures : Nat) (last : Option (Failure τ)) :
      releaseAll (plane.bound settings).recorded keys failures last =
        releaseAll plane.recorded keys failures last := by
    induction keys generalizing failures last with
    | nil => rfl
    | cons key keys ih =>
      simp only [releaseAll, ih]
      rfl
  simp only [shutdown, hall]

section

variable [Seconds τ] [Clock ω τ] {plane : ControlPlane ω τ} {settings : Settings τ} {I : ω → Prop}
  {fit : EnvironmentId → Prop}

theorem Operation.ask_traced
    (h : (plane.bound settings).AlikeOn (ofTracing I) fit (plane.bound settings)) (e : Engine τ)
    {op : Operation ω τ} (hop : op.Keeps I) :
    InStep ((ofTracing I).recorded.Sites fit) Eq Eq (op.ask plane settings e) (op.ask plane settings e) := by
  have hopen (key : SessionKey) :
      InStep (ofTracing I).recorded.Envs Eq ((ofTracing I).recorded.Runners fit)
        (Runner.open plane.recorded settings key) (Runner.open plane.recorded settings key) :=
    Runner.open_alike h.recorded trivial key
  have hsame : (ofTracing I).recorded.SameOutput := fun _ _ ho => ho
  cases op with
  | execute sub =>
    exact (Engine.execute_alike h.recorded hopen e sub (hsame.reads _)).bind fun _ _ hr =>
      .pure (congrArg _ (hr.same hsame))
  | toolchainVersion =>
    exact (Engine.toolchainVersion_alike h.recorded hopen hsame e).bind fun _ _ hv => .pure (congrArg _ hv)
  | validateToolchain =>
    exact (Engine.validateToolchain_alike h.recorded hopen hsame e).bind fun _ _ _ => .pure rfl
  | acquire key => exact (Engine.acquire_alike hopen key).bind fun _ _ hi => .pure (by rw [hi])
  | get key => exact (Likeness.registered key).bind fun _ _ hi => .pure (by rw [hi])
  | release key => exact (Pool.release_alike h.recorded key).bind fun _ _ _ => .pure rfl
  | shutdown =>
    have hshutdown := Pool.shutdown_alike h.recorded
    rw [Pool.shutdown_bound] at hshutdown
    exact hshutdown.bind fun _ _ _ => .pure rfl
  | outside change =>
    refine .bind (.modify fun s s' hs => ?_) fun _ _ _ => .pure rfl
    obtain ⟨⟨hworld, hI⟩, hcalls⟩ := hs.env.world
    exact ⟨hs.runners, hs.admits, hs.fits, hs.registry, hs.guards,
      ⟨⟨congrArg change hworld, hop _ hI⟩, hcalls⟩, trivial, hs.env.log, hs.env.drawn⟩

theorem dialogue_traced
    (h : (plane.bound settings).AlikeOn (ofTracing I) fit (plane.bound settings)) (e : Engine τ)
    {ops : List (Operation ω τ)} (hops : ∀ op ∈ ops, op.Keeps I) {s s' : Site (Recorded ω τ) τ}
    (hs : (ofTracing I).recorded.Sites fit s s') :
    (dialogue plane settings e ops s).1 = (dialogue plane settings e ops s').1 ∧
      (ofTracing I).recorded.Sites fit (dialogue plane settings e ops s).2
        (dialogue plane settings e ops s').2 := by
  -- What is traced and logged for debugging differs from the first operation on, so any two states alike
  -- take part in the induction.
  induction ops generalizing s s' with
  | nil => exact ⟨rfl, hs⟩
  | cons op ops ih =>
    obtain ⟨hop, hrest⟩ := List.forall_mem_cons.mp hops
    obtain ⟨hanswer, hnext⟩ := Operation.ask_traced h e hop s s' hs
    obtain ⟨hanswers, hlast⟩ := ih hrest hnext
    exact ⟨congrArg₂ _ hanswer.eq hanswers, hlast⟩

end

def Transparent [Seconds τ] [Clock ω τ] (plane : ControlPlane ω τ) (settings : Settings τ) (e : Engine τ)
    (env : Env ω τ) (ops : List (Operation ω τ)) : Prop :=
  ∀ tracer tracer' : Tracer τ,
    let run := dialogue plane settings e ops (.initial { env with tracer })
    let run' := dialogue plane settings e ops (.initial { env with tracer := tracer' })
    run.1 = run'.1 ∧
      run.2.env.world.calls.map PlaneCall.request = run'.2.env.world.calls.map PlaneCall.request ∧
      run.2.env.world.world = run'.2.env.world.world ∧
      run.2.runners = run'.2.runners ∧ run.2.registry = run'.2.registry ∧ run.2.guards = run'.2.guards ∧
      run.2.env.drawn = run'.2.env.drawn ∧
      Log.passing Level.info.rank run.2.env.log = Log.passing Level.info.rank run'.2.env.log

theorem transparent_of_alikeOn [Seconds τ] [Clock ω τ] {plane : ControlPlane ω τ} {settings : Settings τ}
    {I : ω → Prop} {fit : EnvironmentId → Prop}
    (h : (plane.bound settings).AlikeOn (ofTracing I) fit (plane.bound settings)) (e : Engine τ) {env : Env ω τ}
    (henv : I env.world) {ops : List (Operation ω τ)} (hops : ∀ op ∈ ops, op.Keeps I) :
    Transparent plane settings e env ops := by
  intro tracer tracer' run run'
  have hstart : (ofTracing I).recorded.Sites fit (.initial { env with tracer })
      (.initial { env with tracer := tracer' }) :=
    ⟨rfl, nofun, nofun, rfl, rfl, ⟨⟨⟨rfl, henv⟩, rfl⟩, trivial, rfl, rfl⟩⟩
  obtain ⟨hanswers, hlast⟩ := dialogue_traced h e hops hstart
  obtain ⟨⟨hworld, _⟩, hcalls⟩ := hlast.env.world
  exact ⟨hanswers, hcalls, hworld, hlast.runners, hlast.registry, hlast.guards, hlast.env.drawn, hlast.env.log⟩

namespace Docker

def onHost : Operation ω τ → Operation (Rack (Launched ω τ) τ) τ
  | .execute s => .execute s
  | .toolchainVersion => .toolchainVersion
  | .validateToolchain => .validateToolchain
  | .acquire key => .acquire key
  | .get key => .get key
  | .release key => .release key
  | .shutdown => .shutdown
  | .outside change => .outside fun r => { r with outer := { r.outer with world := change r.outer.world } }

theorem onHost_keeps (op : Operation ω τ) : (onHost op).Keeps Rack.CliOnly := by
  cases op with
  | outside change => exact fun _ h => h
  | _ => trivial

end Docker

/-- Whatever the control plane that is all outside does, and whatever comes of the processes that are launched
for the `docker` command, tracing is transparent. -/
theorem tracing_transparent [Seconds τ] [Clock ω τ] (settings : Settings τ) (e : Engine τ) (env : Env ω τ)
    (ops : List (Operation ω τ)) :
    (∀ remote : Remote ω τ, Transparent remote.plane settings e env ops) ∧
      ∀ (shell : Docker.Shell ω τ) (client : Docker.Client (Docker.Launched ω τ) τ),
        Docker.normalized (τ := τ) settings.controlPlane = .ok Docker.Choice.cli.name →
          Transparent (Docker.plane shell.strict.watched client) settings e
            { env with world := { outer := { world := env.world } } } (ops.map Docker.onHost) := by
  refine ⟨fun remote => ?_, fun shell client hcli => ?_⟩
  · have hremote : (remote.plane.bound settings).AlikeOn (ofTracing fun _ => True) (fun _ => True)
        (remote.plane.bound settings) := remote.plane_traced.alikeOn.bound settings
    exact transparent_of_alikeOn hremote e trivial fun op _ => op.keeps_true
  · have hdocker := Docker.plane_traced shell.strict_refuses.watched client hcli
    have hempty (outer : Docker.Launched ω τ) : (⟨outer, []⟩ : Docker.Rack (Docker.Launched ω τ) τ).CliOnly :=
      List.forall_mem_nil _
    have hkeeps : ∀ op ∈ ops.map Docker.onHost, op.Keeps Docker.Rack.CliOnly :=
      List.forall_mem_map.mpr fun op _ => Docker.onHost_keeps op
    exact transparent_of_alikeOn hdocker e (hempty _) hkeeps

namespace Script

structure Host where
  endings : List (Docker.Ending Double)

instance : Clock Host Double where
  now _ := Double.zero false
  wall _ := Double.zero false

def shell : Docker.Shell Host Double where
  launch _ h := (h.endings.headD (.exited 0 (some []) (some [])), ⟨h.endings.tail⟩)
  which _ _ := true

def unreachable {α : Type} : Call ω τ α := Act.fail (.other .engine none)

def client : Docker.Client ω τ where
  fromEnv _ := unreachable
  run _ := unreachable
  lookUp _ := unreachable
  putArchive _ _ := unreachable
  execCreate _ _ := unreachable
  execStart _ := unreachable
  execInspect _ := unreachable
  execRun _ _ := unreachable
  stats := unreachable
  remove := unreachable
  ping := unreachable
  version := unreachable
  close := unreachable

end Script

theorem tracing_transparent_stalled :
    let host : Script.Host :=
      ⟨[.exited 0 (some (Utf8.encodeString "abc\n")) none, .exited 0 none none, .timedOut]⟩
    let plane := Docker.plane Script.shell.strict.watched Script.client
    let env : Env (Docker.Rack (Docker.Launched Script.Host Double) Double) Double :=
      { world := { outer := { world := host } } }
    let ops := [Operation.execute Script.submission, .shutdown].map Docker.onHost
    let run (tracer : Tracer Double) :=
      dialogue plane Script.settings (Script.engine true) ops (.initial { env with tracer })
    let res : ExecutionResult := { success := false, error := "Execution timed out after 1 seconds" }
    Docker.normalized (τ := Double) Script.settings.controlPlane = .ok Docker.Choice.cli.name ∧
      Transparent plane Script.settings (Script.engine true) env ops ∧
      (run {}).1 = [.ok (.result res), .ok .done] ∧ (run {}).2.env.tracer.calls.length = 0 ∧
      (run { enabled := true }).2.env.tracer.calls.length = 5 := by
  intro host plane env ops run res
  have hcli : Docker.normalized (τ := Double) Script.settings.controlPlane = .ok Docker.Choice.cli.name := by
    decide +kernel
  refine ⟨hcli, ?_, ?_, ?_, ?_⟩
  · exact (tracing_transparent Script.settings (Script.engine true) { world := host }
      [.execute Script.submission, .shutdown]).2 Script.shell Script.client hcli
  · decide +kernel
  · decide +kernel
  · decide +kernel

end Playpen
