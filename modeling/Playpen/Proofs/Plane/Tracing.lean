import Playpen.Docker.Registry
import Playpen.Proofs.Engine.Discretion

namespace Playpen

open Act (Agree InStep)
open Likeness (ofTracing)

variable {ω τ α : Type}

namespace Env

def Quiet (x : Effect ω τ Unit) : Prop :=
  ∀ env, (x env).1 = .ok () ∧ (x env).2.world = env.world ∧ (x env).2.drawn = env.drawn ∧
    Log.passing Level.info.rank (x env).2.log = Log.passing Level.info.rank env.log

namespace Quiet

theorem pure : Quiet (pure () : Effect ω τ Unit) := fun _ => ⟨rfl, rfl, rfl, rfl⟩

theorem updateTracer (f : Tracer τ → Tracer τ) : Quiet (Env.updateTracer f : Effect ω τ Unit) :=
  fun _ => ⟨rfl, rfl, rfl, rfl⟩

theorem note (message : String) : Quiet (Env.note .debug message : Effect ω τ Unit) := by
  refine fun env => ⟨rfl, rfl, rfl, ?_⟩
  show Log.passing Level.info.rank (env.log ++ [⟨.debug, message⟩]) = _
  rw [Log.passing, List.filter_append]
  exact List.append_nil _

theorem seq {x y : Effect ω τ Unit} (hx : Quiet x) (hy : Quiet y) : Quiet (x >>= fun _ => y) := by
  intro env
  obtain ⟨hok, hworld, hdrawn, hlog⟩ := hx env
  obtain ⟨hok', hworld', hdrawn', hlog'⟩ := hy (x env).2
  rw [Act.bind_ok (Prod.ext hok rfl)]
  exact ⟨hok', hworld'.trans hworld, hdrawn'.trans hdrawn, hlog'.trans hlog⟩

theorem read {f : Env ω τ → α} {g : α → Effect ω τ Unit} (hg : ∀ a, Quiet (g a)) :
    Quiet (Act.read f >>= g) := fun env => hg (f env) env

theorem used {r : Except Misuse α} {a : α} (hr : r = .ok a) {g : α → Effect ω τ Unit} (hg : Quiet (g a)) :
    Quiet (Act.used r >>= g) := by
  subst hr
  exact hg

end Quiet

def Traceable (id : Option EnvironmentId) : Prop := ∃ place, shown id = .ok place

variable [Seconds τ]

theorem traceCall_quiet {id : Option EnvironmentId} (hid : Traceable id) (operation : String) (elapsed : τ)
    (error : Option String) : Quiet (traceCall operation id elapsed error : Effect ω τ Unit) := by
  obtain ⟨place, hplace⟩ := hid
  refine .read fun on => ?_
  cases on with
  | false => exact .pure
  | true => exact .seq (.updateTracer _) (.used hplace (.note _))

end Env

variable [Seconds τ] [Clock ω τ]

namespace Likeness

variable {I : ω → Prop}

theorem quiet {x x' : Effect ω τ Unit} (hx : Env.Quiet x) (hx' : Env.Quiet x') :
    InStep (ofTracing I).Envs Eq (fun _ _ => True) x x' := by
  intro env env' he
  obtain ⟨hok, hworld, hdrawn, hlog⟩ := hx env
  obtain ⟨hok', hworld', hdrawn', hlog'⟩ := hx' env'
  rw [hok, hok']
  refine ⟨.ok trivial, ?_, trivial, hlog.trans (he.log.trans hlog'.symm), ?_⟩
  · rw [hworld, hworld']
    exact he.world
  · rw [hdrawn, hdrawn', he.drawn]

theorem traceSince {id : Option EnvironmentId} (hid : Env.Traceable id) (operation : String) (start : τ)
    (error : Option String) :
    InStep (ofTracing I).Envs Eq (fun _ _ => True) (Env.traceSince operation id start error)
      (Env.traceSince operation id start error) := by
  refine .bind (sinceNow start) ?_
  rintro elapsed _ rfl
  exact quiet (Env.traceCall_quiet hid _ _ _) (Env.traceCall_quiet hid _ _ _)

theorem called {x : Call ω τ α} (hx : ∀ w, I w → I (x w).2) :
    InStep (ofTracing I).Envs Eq Eq (Env.call x) (Env.call x) := by
  refine .within (R := fun w w' => w = w' ∧ I w) (fun _ _ he => he.world)
    (fun _ _ _ _ he hw => ⟨hw, trivial, he.log, he.drawn⟩) ?_
  rintro w _ ⟨rfl, hw⟩
  exact ⟨.refl (fun _ => rfl) _, rfl, hx w hw⟩

end Likeness

theorem Remote.plane_traced (remote : Remote ω τ) :
    remote.plane.Alike (ofTracing fun _ => True) remote.plane := by
  constructor
  case exec =>
    intro l id command
    refine (Likeness.called fun _ _ => trivial).mono (fun _ _ h => h) ?_
    rintro capture _ rfl
    exact ⟨rfl, rfl⟩
  all_goals
    intros
    exact Likeness.called fun _ _ => trivial

end Playpen
