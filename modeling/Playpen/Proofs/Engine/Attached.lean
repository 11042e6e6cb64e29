import Playpen.Proofs.Engine.Invariant
import Playpen.Proofs.Plane.Scripted
import Playpen.Proofs.Runner.Attached

namespace Playpen

variable {ω τ α : Type} [Seconds τ] [Clock ω τ] (plane : ControlPlane ω τ) {settings : Settings τ}

theorem Runner.attached_conforms (ho : settings.ownsEnvironment = false) :
    Conforms plane settings (Attached settings.containerName) (PlaneCall.Spares settings.containerName) where
  opened := open_sparing plane ho
  inject := inject_sparing plane
  run := run_sparing plane
  toolchainVersion := toolchainVersion_sparing plane none
  memoryUsage := memoryUsage_sparing plane
  close := close_sparing plane

/-- What callers do with an engine and its pool, with runners of their own, and with any runner that
there is, behind the pool's back. -/
inductive Deed (ω τ : Type)
  | ask (op : Operation ω τ)
  | construct (key : SessionKey)
  | «open» (key : SessionKey)
  | use (i : Nat) (u : Use ω τ)

def Deed.perform (settings : Settings τ) (e : Engine τ) (s : Site (Recorded ω τ) τ) :
    Deed ω τ → Site (Recorded ω τ) τ
  | .ask op => op.perform plane settings e s
  | .construct key => ((Site.effect (Runner.new plane.recorded settings key) >>= Site.adopt) s).2
  | .open key => ((Site.effect (Runner.open plane.recorded settings key) >>= Site.adopt) s).2
  | .use i u => (Site.withRunner i (u.act plane) s).2

def deeds (settings : Settings τ) (e : Engine τ) (env : Env ω τ) (done : List (Deed ω τ)) :
    Site (Recorded ω τ) τ :=
  done.foldl (Deed.perform plane settings e) { env := { env with world := ⟨env.world, []⟩ } }

theorem Deed.perform_kept (ho : settings.ownsEnvironment = false) (e : Engine τ)
    {s : Site (Recorded ω τ) τ}
    (hs : s.Kept (Runner.Attached settings.containerName) (PlaneCall.Spares settings.containerName))
    (d : Deed ω τ) :
    (d.perform plane settings e s).Kept (Runner.Attached settings.containerName)
      (PlaneCall.Spares settings.containerName) := by
  cases d with
  | ask op => exact (Runner.attached_conforms plane ho).perform e hs op
  | construct key =>
    have hnew := Site.Upholds.yielded (Runner.new_sparing plane ho key)
    exact hs.after (.bind hnew fun r hr => Site.Upholds.adopt hr)
  | «open» key =>
    have hopen := Site.Upholds.yielded (Runner.open_sparing plane ho key)
    exact hs.after (.bind hopen fun r hr => Site.Upholds.adopt hr)
  | use i u => exact hs.after (Site.Upholds.withRunner i (Runner.act_sparing plane u))

theorem deeds_kept (ho : settings.ownsEnvironment = false) (e : Engine τ) (env : Env ω τ)
    (done : List (Deed ω τ)) : (deeds plane settings e env done).Kept (Runner.Attached settings.containerName)
      (PlaneCall.Spares settings.containerName) := by
  induction done using List.reverseRecOn with
  | nil => exact ⟨List.forall_mem_nil _, List.forall_mem_nil _⟩
  | append_singleton done d ih =>
    rw [deeds, List.foldl_append]
    exact d.perform_kept plane ho e ih

/-- An environment that was there before is neither made anew nor removed, and no other one is touched. -/
theorem attached_environment_spared (hn : settings.containerName.truth = true) (e : Engine τ)
    (env : Env ω τ) (done : List (Deed ω τ)) :
    ∀ c ∈ (deeds plane settings e env done).env.world.calls, c.op ≠ .create ∧ c.op ≠ .remove ∧
      ∀ id, c.environment? = some id → id = settings.containerName := by
  have ho : settings.ownsEnvironment = false := by simp [Settings.ownsEnvironment, hn]
  exact (deeds_kept plane ho e env done).calls

namespace Script

def shared : Settings Double := { Script.settings with containerName := .text "shared" }

def sharing : List (Deed Script Double) :=
  [.ask (.execute submission), .open (.text "k"), .use 1 (.inject submission.source), .use 1 (.run false none),
    .ask (.outside fun w => { w with running := false }), .use 1 (.run false none),
    .ask (.execute submission), .use 1 .close, .ask (.release (.text "default")), .ask .shutdown]

end Script

theorem attached_environment_spared_shared :
    let world : Script := { execs := [.error (.timeout (Double.ofInt 1)), .error (.timeout (Double.ofInt 1))] }
    let s := deeds Script.plane Script.shared (Script.engine true) { world } Script.sharing
    (∀ c ∈ s.env.world.calls, c.op ≠ .create ∧ c.op ≠ .remove ∧
      ∀ id, c.environment? = some id → id = .text "shared") ∧
    s.env.world.calls.map PlaneCall.op =
      [.connect, .isRunning, .inject, .exec, .terminate, .close, .connect, .isRunning, .inject, .exec,
        .terminate, .isRunning, .connect, .isRunning, .close, .close] := by
  refine ⟨attached_environment_spared Script.plane (by decide) _ _ _, ?_⟩
  decide +kernel

end Playpen
