import Playpen.Proofs.Act
import Playpen.Sandbox.Pool

namespace Playpen

open Utf8 (Bytes)

inductive PlaneCall (τ : Type)
  | connect (settings : Settings τ) (reply : Except (Failure τ) Link)
  /-- With the number that was drawn last. -/
  | create (link : Link) (spec : EnvironmentSpec) (drawn : Nat) (reply : Except (Failure τ) EnvironmentId)
  | inject (link : Link) (id : EnvironmentId) (dest : Value) (archive : Bytes)
      (reply : Except (Failure τ) Unit)
  | exec (link : Link) (id : EnvironmentId) (command : Command τ) (reply : Except (Failure τ) Capture)
  | terminate (link : Link) (id : EnvironmentId) (user : Value) (reply : Except (Failure τ) Unit)
  | isRunning (link : Link) (id : EnvironmentId) (reply : Except (Failure τ) Bool)
  | memoryUsage (link : Link) (id : EnvironmentId) (reply : Except (Failure τ) Value)
  | remove (link : Link) (id : EnvironmentId) (reply : Except (Failure τ) Unit)
  | close (link : Link) (reply : Except (Failure τ) Unit)

/-- A world with the calls made so far, the first one first. -/
structure Recorded (ω τ : Type) where
  world : ω
  calls : List (PlaneCall τ) := []

variable {ω τ α : Type}

instance [Clock ω τ] : Clock (Recorded ω τ) τ where
  now w := Clock.now w.world
  wall w := Clock.wall w.world

instance : Recording (Recorded ω τ) (PlaneCall τ) where
  calls w := w.calls

section

variable {γ : Type} [Recording ω γ]

instance : Recording (Env ω τ) γ where
  calls env := Recording.calls env.world

instance : Recording (Seat ω τ) γ where
  calls s := Recording.calls s.env.world

instance : Recording (Site ω τ) γ where
  calls s := Recording.calls s.env.world

end

def Env.recorded (call : Except (Failure τ) α → PlaneCall τ) (x : Effect ω τ α) :
    Effect (Recorded ω τ) τ α := fun env =>
  let (r, inner) := x { env with world := env.world.world }
  (r, { inner with world := ⟨inner.world, env.world.calls ++ [call r]⟩ })

def ControlPlane.recorded (plane : ControlPlane ω τ) : ControlPlane (Recorded ω τ) τ where
  connect s := Env.recorded (.connect s) (plane.connect s)
  create l spec := fun env => Env.recorded (.create l spec env.drawn) (plane.create l spec) env
  inject l id dest archive := Env.recorded (.inject l id dest archive) (plane.inject l id dest archive)
  exec l id command := Env.recorded (.exec l id command) (plane.exec l id command)
  terminate l id user := Env.recorded (.terminate l id user) (plane.terminate l id user)
  isRunning l id := Env.recorded (.isRunning l id) (plane.isRunning l id)
  memoryUsage l id := Env.recorded (.memoryUsage l id) (plane.memoryUsage l id)
  remove l id := Env.recorded (.remove l id) (plane.remove l id)
  close l := Env.recorded (.close l) (plane.close l)

namespace PlaneCall

@[simp]
def created? : PlaneCall τ → Option EnvironmentId
  | .create _ _ _ (.ok id) => some id
  | _ => none

@[simp]
def removed? : PlaneCall τ → Option EnvironmentId
  | .remove _ id _ => some id
  | _ => none

@[simp]
def connected? : PlaneCall τ → Option Link
  | .connect _ (.ok l) => some l
  | _ => none

@[simp]
def closed? : PlaneCall τ → Option Link
  | .close l _ => some l
  | _ => none

end PlaneCall

open Act (Does)

namespace Env

theorem does_recorded {call : Except (Failure τ) α → PlaneCall τ} {x : Effect ω τ α}
    {env : Env (Recorded ω τ) τ} : Does (recorded call x) env fun r added _ => added = [call r] :=
  ⟨[call _], rfl, rfl⟩

theorem does_create (plane : ControlPlane ω τ) (l : Link) (spec : EnvironmentSpec) (env : Env (Recorded ω τ) τ) :
    Does (plane.recorded.create l spec) env fun r added _ => added = [.create l spec env.drawn r] :=
  ⟨[_], rfl, rfl⟩

theorem noteUsing_ok (level : Level) {message : Except Misuse String} {t : String}
    (h : message = .ok t) (env : Env ω τ) :
    noteUsing level message env = (.ok (), { env with log := env.log ++ [⟨level, t⟩] }) := by
  subst h; rfl

variable [Seconds τ] [Clock ω τ]

theorem timed_eq (name : String) (block : Effect ω τ α) (env : Env ω τ) :
    let elapsed := Seconds.sub (Clock.now (block env).2.world) (Clock.now env.world : τ)
    timed name block env = ((block env).1,
      { (block env).2 with
        tracer := if env.tracer.enabled then (block env).2.tracer.record name elapsed else (block env).2.tracer
        log := if env.tracer.enabled then
          (block env).2.log ++ [⟨.debug, s!"[timing] {name}: {Seconds.fixed 3 elapsed}s"⟩]
        else (block env).2.log }) := by
  intro elapsed
  refine (Act.bind_ok rfl).trans ?_
  cases h : env.tracer.enabled with
  | false => simp [h]
  | true =>
    simp only [h, Bool.not_true, Bool.false_eq_true, ↓reduceIte]
    exact Act.bind_ok rfl

theorem timed_apply (name : String) (block : Effect ω τ α) (env : Env ω τ) :
    (timed name block env).1 = (block env).1 ∧
      (timed name block env).2.world = (block env).2.world := by
  rw [timed_eq]
  exact ⟨rfl, rfl⟩

theorem does_timed {γ : Type} [Recording ω γ] {name : String} {block : Effect ω τ α} {env : Env ω τ}
    {post : Except (Failure τ) α → List γ → Prop} (h : Does block env fun r added _ => post r added) :
    Does (timed name block) env fun r added _ => post r added := by
  obtain ⟨added, hc, hp⟩ := h
  obtain ⟨hr, hw⟩ := timed_apply name block env
  exact ⟨added, (congrArg Recording.calls hw).trans hc, hr ▸ hp⟩

end Env

theorem Seat.does_effect {γ : Type} [Recording ω γ] {x : Effect ω τ α} {s : Seat ω τ}
    {post : Except (Failure τ) α → List γ → Prop}
    (h : Does x s.env fun r added _ => post r added) :
    Does (Seat.effect x) s fun r added s' => s'.runner = s.runner ∧ post r added :=
  .within rfl (fun _ => rfl) (h.mono fun _ _ _ hp => ⟨rfl, hp⟩)

end Playpen
