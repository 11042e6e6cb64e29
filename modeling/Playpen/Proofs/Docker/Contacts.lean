import Playpen.Proofs.Config.Typed
import Playpen.Proofs.Engine.Tracing
/-!
What a control plane is asked to do with an environment, and the contacts with the outside that it makes on
the way: processes that are launched and calls of the client library, each with how it ended. Beside the
contacts stands what is entered into the tracer.
-/
namespace Playpen

open Utf8 (Bytes)

inductive Errand (τ : Type)
  | create (spec : EnvironmentSpec)
  | inject (id : EnvironmentId) (dest : Value) (archive : Bytes)
  | exec (id : EnvironmentId) (command : Command τ)
  | terminate (id : EnvironmentId) (user : Value)
  | isRunning (id : EnvironmentId)
  | memoryUsage (id : EnvironmentId)
  | remove (id : EnvironmentId)

inductive Reply
  | done
  | environment (id : EnvironmentId)
  | capture (c : Capture)
  | running (b : Bool)
  | memory (v : Value)

variable {ω τ α : Type}

namespace Errand

def IsTextual : Errand τ → Prop
  | create _ => True
  | inject id dest _ => id.IsText ∧ dest.IsText
  | exec id _ | terminate id _ | isRunning id | memoryUsage id | remove id => id.IsText

def name : Errand τ → String
  | create _ => "create"
  | inject .. => "inject"
  | exec .. => "exec"
  | terminate .. => "terminate"
  | isRunning _ => "inspect"
  | memoryUsage _ => "stats"
  | remove _ => "remove"

end Errand

def ControlPlane.carry (plane : ControlPlane ω τ) (l : Link) : Errand τ → Effect ω τ Reply
  | .create spec => do
    let id ← plane.create l spec
    pure (.environment id)
  | .inject id dest archive => do
    plane.inject l id dest archive
    pure .done
  | .exec id command => do
    let capture ← plane.exec l id command
    pure (.capture capture)
  | .terminate id user => do
    plane.terminate l id user
    pure .done
  | .isRunning id => do
    let running ← plane.isRunning l id
    pure (.running running)
  | .memoryUsage id => do
    let used ← plane.memoryUsage l id
    pure (.memory used)
  | .remove id => do
    plane.remove l id
    pure .done

structure Entry where
  operation : String
  environment : Option EnvironmentId
  error : Option String

def TracedCall.entry (c : TracedCall τ) : Entry := ⟨c.operation, c.environment, c.error⟩

namespace Docker

inductive Contact (τ : Type)
  | launch (l : Launch τ) (ending : Ending τ)
  | run (arguments : RunArguments) (reply : Except (Failure τ) EnvironmentId)
  | lookUp (id : EnvironmentId) (reply : Except (Failure τ) Value)
  | putArchive (dest : Value) (archive : Bytes) (reply : Except (Failure τ) Value)
  | execCreate (id : EnvironmentId) (command : Command τ) (reply : Except (Failure τ) Value)
  | execStart (execId : Value) (reply : Except (Failure τ) Waited)
  | execInspect (execId : Value) (reply : Except (Failure τ) Value)
  | execRun (words : List Value) (user : String) (reply : Except (Failure τ) Value)
  | stats (reply : Except (Failure τ) Value)
  | remove (reply : Except (Failure τ) Unit)

structure Noted (ω τ : Type) where
  world : ω
  contacts : List (Contact τ) := []

instance [Clock ω τ] : Clock (Noted ω τ) τ where
  now w := Clock.now w.world
  wall w := Clock.wall w.world

instance : Recording (Noted ω τ) (Contact τ) where
  calls w := w.contacts

instance : Recording (Rack (Noted ω τ) τ) (Contact τ) where
  calls r := r.outer.contacts

instance : Recording (Env (Rack (Noted ω τ) τ) τ) (Contact τ) where
  calls env := env.world.outer.contacts

def noting (contact : Except (Failure τ) α → Contact τ) (x : Call ω τ α) : Call (Noted ω τ) τ α := fun w =>
  let (r, world) := x w.world
  (r, ⟨world, w.contacts ++ [contact r]⟩)

def apart (x : Call ω τ α) : Call (Noted ω τ) τ α :=
  Act.within Noted.world (fun world w => { w with world }) x

def Shell.noted (shell : Shell ω τ) : Shell (Noted ω τ) τ where
  launch l w :=
    let (ending, world) := shell.launch l w.world
    (ending, ⟨world, w.contacts ++ [.launch l ending]⟩)
  which binary w := shell.which binary w.world

def Client.noted (client : Client ω τ) : Client (Noted ω τ) τ where
  fromEnv limit := apart (client.fromEnv limit)
  run arguments := noting (.run arguments) (client.run arguments)
  lookUp id := noting (.lookUp id) (client.lookUp id)
  putArchive dest archive := noting (.putArchive dest archive) (client.putArchive dest archive)
  execCreate id command := noting (.execCreate id command) (client.execCreate id command)
  execStart execId := noting (.execStart execId) (client.execStart execId)
  execInspect execId := noting (.execInspect execId) (client.execInspect execId)
  execRun words user := noting (.execRun words user) (client.execRun words user)
  stats := noting .stats client.stats
  remove := noting .remove client.remove
  ping := apart client.ping
  version := apart client.version
  close := apart client.close

inductive Client.Gives (client : Client ω τ) : Contact τ → Prop
  | run (arguments : RunArguments) (w : ω) : Gives client (.run arguments (client.run arguments w).1)
  | lookUp (id : EnvironmentId) (w : ω) : Gives client (.lookUp id (client.lookUp id w).1)
  | putArchive (dest : Value) (archive : Bytes) (w : ω) :
    Gives client (.putArchive dest archive (client.putArchive dest archive w).1)
  | execCreate (id : EnvironmentId) (command : Command τ) (w : ω) :
    Gives client (.execCreate id command (client.execCreate id command w).1)
  | execStart (execId : Value) (w : ω) : Gives client (.execStart execId (client.execStart execId w).1)
  | execInspect (execId : Value) (w : ω) : Gives client (.execInspect execId (client.execInspect execId w).1)
  | execRun (words : List Value) (user : String) (w : ω) :
    Gives client (.execRun words user (client.execRun words user w).1)
  | stats (w : ω) : Gives client (.stats (client.stats w).1)
  | remove (w : ω) : Gives client (.remove (client.remove w).1)

def Connection.lasting : Connection τ → Connection τ
  | .api limit w => .api limit { w with stuck := 0 }
  | c => c

namespace Connection

variable {c : Connection τ}

end Connection

structure Reports (env : Env (Rack ω τ) τ) (entries : List Entry) (env' : Env (Rack ω τ) τ) : Prop where
  enabled : env'.tracer.enabled = env.tracer.enabled
  calls : env'.tracer.calls.map TracedCall.entry =
    env.tracer.calls.map TracedCall.entry ++ if env.tracer.enabled then entries else []
  connections : env'.world.connections.map Connection.lasting = env.world.connections.map Connection.lasting

namespace Reports

variable {env env' env'' : Env (Rack ω τ) τ} {a b : List Entry}

theorem of_eq (ht : env'.tracer = env.tracer) (hc : env'.world.connections = env.world.connections) :
    Reports env [] env' := by
  refine ⟨by rw [ht], ?_, by rw [hc]⟩
  rw [ht]
  simp

theorem refl (env : Env (Rack ω τ) τ) : Reports env [] env := of_eq rfl rfl

theorem trans (h : Reports env a env') (h' : Reports env' b env'') : Reports env (a ++ b) env'' := by
  refine ⟨h'.enabled.trans h.enabled, ?_, h'.connections.trans h.connections⟩
  rw [h'.calls, h.calls, h.enabled]
  cases env.tracer.enabled <;> simp

theorem after (h : Reports env [] env') (h' : Reports env' b env'') : Reports env b env'' := h.trans h'

theorem connection {c : Connection τ} {l : Link} (h : Reports env a env') (hl : env.world.connections[l]? = some c) :
    ∃ c', env'.world.connections[l]? = some c' ∧ c'.lasting = c.lasting := by
  have hmap := congrArg (·[l]?) h.connections
  simp only [List.getElem?_map, hl, Option.map_some] at hmap
  exact Option.map_eq_some_iff.mp hmap

end Reports

theorem connection_apply {env : Env (Rack ω τ) τ} {l : Link} {c : Connection τ}
    (hl : env.world.connections[l]? = some c) : connection l env = (.ok c, env) := by
  have hread : (Act.read fun env => env.world.connections[l]? : Effect (Rack ω τ) τ _) env = (.ok (some c), env) :=
    congrArg (fun c => (Except.ok c, env)) hl
  exact (Act.bind_ok hread).trans rfl

open Act (Does)

section

variable {env : Env (Rack (Noted ω τ) τ) τ}

theorem does_call {client : Client ω τ} {contact : Except (Failure τ) α → Contact τ} {x : Call ω τ α}
    (hgives : ∀ w, client.Gives (contact (x w).1)) :
    Does (Env.call (Rack.outside (noting contact x))) env fun r added env' =>
      added = [contact r] ∧ client.Gives (contact r) ∧ Reports env [] env' :=
  ⟨[contact (x env.world.outer.world).1], rfl, rfl, hgives _, .of_eq rfl rfl⟩

theorem does_run (shell : Shell ω τ) (l : Launch τ) :
    Does (shell.noted.onRack.run l) env fun r added env' =>
      ∃ ending, r = .ok ending ∧ added = [.launch l ending] ∧ Reports env [] env' :=
  ⟨[.launch l (shell.launch l env.world.outer.world).1], rfl, _, rfl, rfl, .of_eq rfl rfl⟩

theorem does_note (level : Level) (message : String) :
    Does (Env.note level message) env fun r added env' => r = .ok () ∧ added = [] ∧ Reports env [] env' :=
  .of_eq rfl rfl ⟨rfl, rfl, .of_eq rfl rfl⟩

theorem traceable_of_isText {id : EnvironmentId} (h : id.IsText) : Env.Traceable (some id) := by
  obtain ⟨t, rfl⟩ := h
  exact traceable_of_isWord rfl

variable [Seconds τ] [Clock ω τ]

theorem does_traceSince (operation : String) (id : Option EnvironmentId) (start : τ) (error : Option String) :
    Does (Env.traceSince operation id start error) env fun r added env' =>
      added = [] ∧ Reports env [⟨operation, id, error⟩] env' ∧ (Env.Traceable id → r = .ok ()) := by
  refine .step (t := env) rfl rfl (.step (t := env) rfl rfl ?_)
  show Does (if env.tracer.enabled = true then _ else _) env _
  cases henabled : env.tracer.enabled with
  | false =>
    rw [if_neg Bool.false_ne_true]
    exact .of_eq rfl rfl ⟨rfl, ⟨rfl, by simp [henabled], rfl⟩, fun _ => rfl⟩
  | true =>
    have hreports (log : List Record) : Reports env [⟨operation, id, error⟩] { env with
        tracer := env.tracer.addCall ⟨operation, id, Seconds.sub (Clock.now env.world) start, error⟩, log } := by
      refine ⟨rfl, ?_, rfl⟩
      rw [henabled]
      exact List.map_append
    rw [if_pos rfl]
    refine .step rfl rfl ?_
    cases hshown : Env.shown id with
    | error m =>
      refine .of_eq rfl rfl ⟨rfl, hreports env.log, ?_⟩
      rintro ⟨place, hplace⟩
      rw [hplace] at hshown
      cases hshown
    | ok place => exact .of_eq rfl rfl ⟨rfl, hreports _, fun _ => rfl⟩

theorem does_trace {id : Option EnvironmentId} (hid : Env.Traceable id) (operation : String) (start : τ)
    (error : Option String) :
    Does (Env.traceSince operation id start error) env fun r added env' =>
      r = .ok () ∧ added = [] ∧ Reports env [⟨operation, id, error⟩] env' :=
  (does_traceSince operation id start error).mono fun _ _ _ ⟨hadded, h, hok⟩ => ⟨hok hid, hadded, h⟩

theorem does_traceThrow {id : Option EnvironmentId} (hid : Env.Traceable id) (operation : String) (start : τ)
    (error : Option String) (f : Failure τ) :
    Does (do Env.traceSince operation id start error; throw f : Effect (Rack (Noted ω τ) τ) τ α) env fun r added env' =>
      r = .error f ∧ added = [] ∧ Reports env [⟨operation, id, error⟩] env' := by
  refine .bind_silent (does_trace hid operation start error) ?_
  intro env₁ h
  exact .throw ⟨rfl, rfl, h⟩

end

end Docker

namespace Script

open Docker

def rack (c : Connection Double) (endings : List (Ending Double)) (tracer : Tracer Double) :
    Env (Rack (Noted Host Double) Double) Double where
  world := { outer := { world := ⟨endings⟩ }, connections := [c] }
  tracer := tracer

end Script

end Playpen
