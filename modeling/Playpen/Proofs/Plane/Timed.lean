import Playpen.Proofs.Runner.Accord

namespace Playpen

open Act (Does)

structure Timed (ω τ : Type) where
  world : ω
  commands : List (τ × τ) := []

variable {ω τ α : Type}

instance [Clock ω τ] : Clock (Timed ω τ) τ where
  now w := Clock.now w.world
  wall w := Clock.wall w.world

instance : Recording (Timed ω τ) (τ × τ) where
  calls w := w.commands

def Env.beginning (begun : ω → List (τ × τ)) (x : Effect ω τ α) : Effect (Timed ω τ) τ α := fun env =>
  let (r, inner) := x { env with world := env.world.world }
  (r, { inner with world := ⟨inner.world, env.world.commands ++ begun env.world.world⟩ })

def Env.unwatched (x : Effect ω τ α) : Effect (Timed ω τ) τ α := Env.beginning (fun _ => []) x

def ControlPlane.timed [Clock ω τ] (plane : ControlPlane ω τ) : ControlPlane (Timed ω τ) τ where
  connect s := Env.unwatched (plane.connect s)
  create l spec := Env.unwatched (plane.create l spec)
  inject l id dest archive := Env.unwatched (plane.inject l id dest archive)
  exec l id command := Env.beginning (fun w => [(Clock.now w, command.timeout)]) (plane.exec l id command)
  terminate l id user := Env.unwatched (plane.terminate l id user)
  isRunning l id := Env.unwatched (plane.isRunning l id)
  memoryUsage l id := Env.unwatched (plane.memoryUsage l id)
  remove l id := Env.unwatched (plane.remove l id)
  close l := Env.unwatched (plane.close l)

namespace Env

theorem does_beginning {begun : ω → List (τ × τ)} {x : Effect ω τ α} {env : Env (Timed ω τ) τ} :
    Does (beginning begun x) env fun _ added _ => added = begun env.world.world :=
  ⟨begun env.world.world, rfl, rfl⟩

theorem calls_unwatched {Q : τ × τ → Prop} (x : Effect ω τ α) : Runner.Calls Q (unwatched x) := by
  intro env
  refine does_beginning.mono ?_
  rintro _ _ _ rfl
  exact List.forall_mem_nil _

end Env

theorem ControlPlane.timed_besides [Clock ω τ] (plane : ControlPlane ω τ) (settings : Settings τ)
    (Q : τ × τ → Prop) : plane.timed.Besides settings (Runner.Has settings) Q := by
  refine ⟨Runner.has_steady settings, ?_, fun _ _ _ _ env => Env.calls_unwatched _ env, ?_, ?_, ?_, ?_, ?_, ?_⟩
  all_goals
    intros
    exact Env.calls_unwatched _

end Playpen
