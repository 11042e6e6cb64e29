import Playpen.Proofs.Act.Pair
import Playpen.Proofs.Plane.Recorded
/-!
Two control planes that answer alike, and what an action makes of it: which of the world, the log and the
failures are the same on both sides.
-/
namespace Playpen

open Act (Agree InStep)
open Utf8 (Bytes)

variable {ω τ α : Type}

namespace Failure

inductive Reworded : Failure τ → Failure τ → Prop
  | playground (m m') : Reworded (.playground m) (.playground m')
  | configuration (m m') : Reworded (.configuration m) (.configuration m')
  | sandbox (m m') : Reworded (.sandbox m) (.sandbox m')
  | workspace (d d') : Reworded (.workspace d) (.workspace d')
  | controlPlane (m id m' id') : Reworded (.controlPlane m id) (.controlPlane m' id')
  | process (code output) : Reworded (.process code output) (.process code output)
  | memoryLimit (code output limit) : Reworded (.memoryLimit code output limit) (.memoryLimit code output limit)
  | timeout (t t') : Reworded (.timeout t) (.timeout t')
  | other (kind m m') : Reworded (.other kind m) (.other kind m')

theorem Reworded.refl (f : Failure τ) : f.Reworded f := by
  cases f <;> constructor

theorem Reworded.isA {f f' : Failure τ} (h : f.Reworded f') (k : Kind) : f.isA k = f'.isA k := by
  cases h <;> rfl

end Failure

/-- In what two sides may differ. -/
structure Likeness (ω τ : Type) [Seconds τ] [Clock ω τ] where
  world : ω → ω → Prop
  tracer : Tracer τ → Tracer τ → Prop
  failure : Failure τ → Failure τ → Prop
  heard : Level → Bool
  output : Bytes → Bytes → Prop
  admits : Settings τ → Prop
  now_eq {w w' : ω} : world w w' → (Clock.now w : τ) = Clock.now w'
  wall_eq {w w' : ω} : world w w' → (Clock.wall w : τ) = Clock.wall w'
  record {t t' u u' : Tracer τ} (name : String) (elapsed : τ) : tracer t t' → tracer u u' →
    tracer (if t.enabled then u.record name elapsed else u)
      (if t'.enabled then u'.record name elapsed else u')
  same (f : Failure τ) : failure f f
  reworded {f f' : Failure τ} : failure f f' → f.Reworded f'
  message {f f' : Failure τ} {level : Level} : failure f f' → heard level = true → f.message = f'.message
  debug : heard .debug = false

variable [Seconds τ] [Clock ω τ]

namespace Likeness

variable (L : Likeness ω τ)

theorem isA {f f' : Failure τ} (h : L.failure f f') (k : Kind) : f.isA k = f'.isA k := (L.reworded h).isA k

structure Envs (env env' : Env ω τ) : Prop where
  world : L.world env.world env'.world
  tracer : L.tracer env.tracer env'.tracer
  log : env.log.filter (fun r => L.heard r.level) = env'.log.filter fun r => L.heard r.level
  drawn : env.drawn = env'.drawn

def SameOutput : Prop := ∀ o o', L.output o o' → o = o'

def Captures (c c' : Capture) : Prop := c.exitCode = c'.exitCode ∧ L.output c.output c'.output

variable {L}

theorem used {σ : Type} {S : σ → σ → Prop} {V : α → α → Prop} {r r' : Except Misuse α} (h : Agree Eq V r r') :
    InStep S L.failure V (Act.used r) (Act.used r') := by
  refine .lift ?_
  cases h with
  | ok h => exact .ok h
  | error h => exact .error (h ▸ L.same _)

theorem use {σ : Type} {S : σ → σ → Prop} (r : Except Misuse α) :
    InStep S L.failure Eq (Act.used r) (Act.used r) := used (.refl (fun _ => rfl) r)

theorem note {level : Level} {m m' : String} (h : L.heard level = true → m = m') :
    InStep L.Envs L.failure (fun _ _ => True) (Env.note level m) (Env.note level m') := by
  refine .modify fun env env' he => ⟨he.world, he.tracer, ?_, he.drawn⟩
  rw [List.filter_append, List.filter_append, he.log]
  cases hl : L.heard level with
  | true => rw [h hl]
  | false => simp [hl]

theorem noteUsing {level : Level} {m m' : Except Misuse String}
    (h : Agree Eq (fun t t' => L.heard level = true → t = t') m m') :
    InStep L.Envs L.failure (fun _ _ => True) (Env.noteUsing level m) (Env.noteUsing level m') :=
  .bind (used h) fun _ _ ht => note ht

theorem now : InStep L.Envs L.failure Eq (Env.now : Effect ω τ τ) Env.now :=
  .read fun _ _ he => L.now_eq he.world

theorem wall : InStep L.Envs L.failure Eq (Env.wall : Effect ω τ τ) Env.wall :=
  .read fun _ _ he => L.wall_eq he.world

theorem draw : InStep L.Envs L.failure Eq (Env.draw : Effect ω τ Nat) Env.draw := by
  intro env env' he
  have hd : env.drawn + 1 = env'.drawn + 1 := by rw [he.drawn]
  exact ⟨.ok hd, he.world, he.tracer, he.log, hd⟩

theorem sinceNow (start : τ) :
    InStep L.Envs L.failure Eq (Env.sinceNow start : Effect ω τ τ) (Env.sinceNow start) :=
  .bind now fun _ _ h => .pure (congrArg (Seconds.sub · start) h)

theorem timed (name : String) {V : α → α → Prop} {x x' : Effect ω τ α}
    (hx : InStep L.Envs L.failure V x x') :
    InStep L.Envs L.failure V (Env.timed name x) (Env.timed name x') := by
  intro env env' he
  obtain ⟨hr, ht⟩ := hx env env' he
  rw [Env.timed_eq, Env.timed_eq]
  refine ⟨hr, ht.world, ?_, ?_, ht.drawn⟩
  · rw [L.now_eq he.world, L.now_eq ht.world]
    exact L.record name _ he.tracer ht.tracer
  · have quiet (on : Bool) (log : List Record) (m : String) :
        (if on then log ++ [⟨.debug, m⟩] else log).filter (fun r => L.heard r.level) =
          log.filter fun r => L.heard r.level := by
      cases on <;> simp [L.debug]
    exact (quiet _ _ _).trans (ht.log.trans (quiet _ _ _).symm)

end Likeness

structure ControlPlane.Alike (L : Likeness ω τ) (plane plane' : ControlPlane ω τ) : Prop where
  connect (settings : Settings τ) :
    InStep L.Envs L.failure Eq (plane.connect settings) (plane'.connect settings)
  create (l : Link) (spec : EnvironmentSpec) :
    InStep L.Envs L.failure Eq (plane.create l spec) (plane'.create l spec)
  inject (l : Link) (id : EnvironmentId) (dest : Value) (archive : Bytes) :
    InStep L.Envs L.failure Eq (plane.inject l id dest archive) (plane'.inject l id dest archive)
  exec (l : Link) (id : EnvironmentId) (command : Command τ) :
    InStep L.Envs L.failure L.Captures (plane.exec l id command) (plane'.exec l id command)
  terminate (l : Link) (id : EnvironmentId) (user : Value) :
    InStep L.Envs L.failure Eq (plane.terminate l id user) (plane'.terminate l id user)
  isRunning (l : Link) (id : EnvironmentId) :
    InStep L.Envs L.failure Eq (plane.isRunning l id) (plane'.isRunning l id)
  memoryUsage (l : Link) (id : EnvironmentId) :
    InStep L.Envs L.failure Eq (plane.memoryUsage l id) (plane'.memoryUsage l id)
  remove (l : Link) (id : EnvironmentId) :
    InStep L.Envs L.failure Eq (plane.remove l id) (plane'.remove l id)
  close (l : Link) : InStep L.Envs L.failure Eq (plane.close l) (plane'.close l)

structure ControlPlane.AlikeOn (L : Likeness ω τ) (fit : EnvironmentId → Prop) (plane plane' : ControlPlane ω τ) :
    Prop where
  connect (settings : Settings τ) :
    InStep L.Envs L.failure Eq (plane.connect settings) (plane'.connect settings)
  create (l : Link) (spec : EnvironmentSpec) :
    InStep L.Envs L.failure (fun id id' => id = id' ∧ fit id) (plane.create l spec) (plane'.create l spec)
  inject (l : Link) (id : EnvironmentId) (dest : Value) (archive : Bytes) (hid : fit id) :
    InStep L.Envs L.failure Eq (plane.inject l id dest archive) (plane'.inject l id dest archive)
  exec (l : Link) (id : EnvironmentId) (command : Command τ) :
    InStep L.Envs L.failure L.Captures (plane.exec l id command) (plane'.exec l id command)
  terminate (l : Link) (id : EnvironmentId) (user : Value) :
    InStep L.Envs L.failure Eq (plane.terminate l id user) (plane'.terminate l id user)
  isRunning (l : Link) (id : EnvironmentId) :
    InStep L.Envs L.failure (fun b b' => b = b' ∧ (b = true → fit id)) (plane.isRunning l id)
      (plane'.isRunning l id)
  memoryUsage (l : Link) (id : EnvironmentId) :
    InStep L.Envs L.failure Eq (plane.memoryUsage l id) (plane'.memoryUsage l id)
  remove (l : Link) (id : EnvironmentId) :
    InStep L.Envs L.failure Eq (plane.remove l id) (plane'.remove l id)
  close (l : Link) : InStep L.Envs L.failure Eq (plane.close l) (plane'.close l)

theorem ControlPlane.Alike.alikeOn {L : Likeness ω τ} {plane plane' : ControlPlane ω τ}
    (h : plane.Alike L plane') : plane.AlikeOn L (fun _ => True) plane' where
  connect := h.connect
  create l spec := (h.create l spec).mono (fun _ _ hf => hf) fun _ _ hid => ⟨hid, trivial⟩
  inject l id dest archive _ := h.inject l id dest archive
  exec := h.exec
  terminate := h.terminate
  isRunning l id := (h.isRunning l id).mono (fun _ _ hf => hf) fun _ _ hb => ⟨hb, fun _ => trivial⟩
  memoryUsage := h.memoryUsage
  remove := h.remove
  close := h.close

def ControlPlane.bound (plane : ControlPlane ω τ) (settings : Settings τ) : ControlPlane ω τ :=
  { plane with connect := fun _ => plane.connect settings }

theorem ControlPlane.AlikeOn.bound {L : Likeness ω τ} {fit : EnvironmentId → Prop}
    {plane plane' : ControlPlane ω τ} (h : plane.AlikeOn L fit plane') (settings : Settings τ) :
    (plane.bound settings).AlikeOn L fit (plane'.bound settings) :=
  { h with connect := fun _ => h.connect settings }

inductive Request (τ : Type)
  | connect (settings : Settings τ)
  | create (link : Link) (spec : EnvironmentSpec)
  | inject (link : Link) (id : EnvironmentId) (dest : Value) (archive : Bytes)
  | exec (link : Link) (id : EnvironmentId) (command : Command τ)
  | terminate (link : Link) (id : EnvironmentId) (user : Value)
  | isRunning (link : Link) (id : EnvironmentId)
  | memoryUsage (link : Link) (id : EnvironmentId)
  | remove (link : Link) (id : EnvironmentId)
  | close (link : Link)

def PlaneCall.request : PlaneCall τ → Request τ
  | .connect settings _ => .connect settings
  | .create l spec _ _ => .create l spec
  | .inject l id dest archive _ => .inject l id dest archive
  | .exec l id command _ => .exec l id command
  | .terminate l id user _ => .terminate l id user
  | .isRunning l id _ => .isRunning l id
  | .memoryUsage l id _ => .memoryUsage l id
  | .remove l id _ => .remove l id
  | .close l _ => .close l

namespace Likeness

def recorded (L : Likeness ω τ) : Likeness (Recorded ω τ) τ where
  world w w' := L.world w.world w'.world ∧ w.calls.map PlaneCall.request = w'.calls.map PlaneCall.request
  tracer := L.tracer
  failure := L.failure
  heard := L.heard
  output := L.output
  admits := L.admits
  now_eq h := L.now_eq h.1
  wall_eq h := L.wall_eq h.1
  record := L.record
  same := L.same
  reworded := L.reworded
  message := L.message
  debug := L.debug

variable {L : Likeness ω τ}

theorem recorded_call {V : α → α → Prop} {call call' : Except (Failure τ) α → PlaneCall τ}
    {x x' : Effect ω τ α} (hc : ∀ r r', (call r).request = (call' r').request)
    (hx : InStep L.Envs L.failure V x x') :
    InStep L.recorded.Envs L.failure V (Env.recorded call x) (Env.recorded call' x') := by
  intro env env' he
  obtain ⟨hr, ht⟩ := hx { env with world := env.world.world } { env' with world := env'.world.world }
    ⟨he.world.1, he.tracer, he.log, he.drawn⟩
  refine ⟨hr, ⟨ht.world, ?_⟩, ht.tracer, ht.log, ht.drawn⟩
  simp only [Env.recorded, List.map_append, List.map_cons, List.map_nil, he.world.2]
  rw [hc]

end Likeness

namespace ControlPlane

variable {L : Likeness ω τ} {plane plane' : ControlPlane ω τ}

theorem AlikeOn.recorded {fit : EnvironmentId → Prop} (h : plane.AlikeOn L fit plane') :
    plane.recorded.AlikeOn L.recorded fit plane'.recorded where
  connect s := Likeness.recorded_call (fun _ _ => rfl) (h.connect s)
  create l spec env env' he := by
    have hrequest (r r' : Except (Failure τ) EnvironmentId) : (PlaneCall.create l spec env.drawn r).request =
        (PlaneCall.create l spec env'.drawn r').request := rfl
    exact Likeness.recorded_call hrequest (h.create l spec) env env' he
  inject l id dest archive hid := Likeness.recorded_call (fun _ _ => rfl) (h.inject l id dest archive hid)
  exec l id command := Likeness.recorded_call (fun _ _ => rfl) (h.exec l id command)
  terminate l id user := Likeness.recorded_call (fun _ _ => rfl) (h.terminate l id user)
  isRunning l id := Likeness.recorded_call (fun _ _ => rfl) (h.isRunning l id)
  memoryUsage l id := Likeness.recorded_call (fun _ _ => rfl) (h.memoryUsage l id)
  remove l id := Likeness.recorded_call (fun _ _ => rfl) (h.remove l id)
  close l := Likeness.recorded_call (fun _ _ => rfl) (h.close l)

theorem Alike.recorded (h : plane.Alike L plane') :
    plane.recorded.AlikeOn L.recorded (fun _ => True) plane'.recorded := h.alikeOn.recorded

end ControlPlane

end Playpen
