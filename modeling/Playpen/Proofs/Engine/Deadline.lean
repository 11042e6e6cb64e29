import Playpen.Proofs.Engine.Answers
import Playpen.Proofs.Engine.Invariant
import Playpen.Proofs.Runner.Deadline

namespace Playpen

open Act (Does)
open Runner (Has Meets)

variable {ω : Type}

namespace Engine

def prepare {ω τ : Type} [Seconds τ] [Clock ω τ] (plane : ControlPlane ω τ) (factory : RunnerFactory ω τ)
    (e : Engine τ) (sub : Submission τ) : SiteAct ω τ Nat := do
  let i ← acquire factory (e.key sub)
  Site.withRunner i (Runner.inject plane sub.source)
  let _ ← Site.withRunner i (Runner.ready plane)
  pure i

section

variable {τ : Type} [Seconds τ] [Clock ω τ] {plane : ControlPlane ω τ} {factory : RunnerFactory ω τ} {e : Engine τ}
  {sub : Submission τ} {s s' : Site ω τ} {i : Nat}

theorem prepare_upholds {γ : Type} [Recording ω γ] {I : Runner τ → Prop} {Q : γ → Prop}
    (hopen : ∀ key, Runner.Yields I Q (factory key))
    (hinject : Runner.Upholds I Q (Runner.inject plane sub.source) fun _ => True)
    (hready : Runner.Upholds I Q (Runner.ready plane) fun _ => True) :
    Site.Upholds I Q (e.prepare plane factory sub) fun _ => True := by
  refine .bind (acquire_upholds hopen _) fun i _ => .bind (Site.Upholds.withRunner i hinject) fun _ _ => ?_
  exact .bind (Site.Upholds.withRunner i hready) fun _ _ => .pure trivial

end

end Engine

theorem Site.withRunner_ok {τ α : Type} {i : Nat} {x : RunnerAct ω τ α} {s s' : Site ω τ} {a : α}
    (h : Site.withRunner i x s = (.ok a, s')) : ∃ r seat, s.runners[i]? = some r ∧ x ⟨r, s.env⟩ = (.ok a, seat) ∧
      s' = { s with env := seat.env, runners := s.runners.set i seat.runner } := by
  unfold Site.withRunner at h
  cases hr : s.runners[i]? with
  | none =>
    simp only [hr] at h
    cases h
  | some r =>
    simp only [hr] at h
    rcases hx : x ⟨r, s.env⟩ with ⟨out, seat⟩
    simp only [hx] at h
    cases h
    exact ⟨r, seat, rfl, hx, rfl⟩

namespace Engine

variable [Clock ω ℚ] {plane : ControlPlane ω ℚ} {factory : RunnerFactory ω ℚ} {e : Engine ℚ} {sub : Submission ℚ}
  {s s' : Site ω ℚ} {i : Nat}

theorem work_late {s₁ s₂ : Site ω ℚ} {start deadline : ℚ} {id : EnvironmentId}
    (hinject : Site.withRunner i (Runner.inject plane sub.source) s₁ = (.ok (), s₂))
    (hready : Site.withRunner i (Runner.ready plane) s₂ = (.ok id, s'))
    (hlate : deadline ≤ Clock.now s'.env.world) :
    work plane sub start deadline i s₁ = (.error (.timeout Seconds.zero), s') := by
  obtain ⟨r, seat, hr, hx, rfl⟩ := Site.withRunner_ok hready
  have hrun := Runner.run_late sub.sections hx hlate
  unfold work
  rw [Act.bind_ok hinject, Act.bind_error]
  simp only [Site.withRunner, hr, hrun]

theorem execute_late (h : e.prepare plane factory sub s = (.ok i, s'))
    (hlate : Seconds.add (Clock.now s.env.world) (e.seconds sub.timeout) ≤ Clock.now s'.env.world) :
    e.execute plane factory sub s =
      e.resolve plane (e.key sub) (e.seconds sub.timeout) (Clock.now s.env.world) (some i)
        (.timeout Seconds.zero) s' := by
  obtain ⟨_, s₁, hacquire, h⟩ := Act.ok_of_bind h
  obtain ⟨_, s₂, hinject, h⟩ := Act.ok_of_bind h
  obtain ⟨_, s₃, hready, h⟩ := Act.ok_of_bind h
  cases h
  have houtcome : (work plane sub (Clock.now s.env.world)
      (Seconds.add (Clock.now s.env.world) (e.seconds sub.timeout)) i).outcome s₁ =
        (.ok (.error (.timeout Seconds.zero)), s') := by
    simp only [Act.outcome, work_late hinject hready hlate]
  rw [execute_eq, hacquire]
  unfold proceed
  exact Act.bind_ok houtcome

end Engine

/-- A command that is begun at an instant ends, with the time it is given, before the deadline and within
the ceiling. If the deadline is reached when all else is ready, no command is begun, and what is answered is
that the execution timed out. -/
theorem execute_deadline [Clock ω ℚ] (plane : ControlPlane ω ℚ) {settings : Settings ℚ}
    (hmax : 0 < settings.maxExecutionTime) (e : Engine ℚ) (sub : Submission ℚ) (s : Site (Timed ω ℚ) ℚ)
    (hs : ∀ r ∈ s.runners, r.settings = settings) :
    let factory := Runner.open plane.timed settings
    let deadline := Clock.now s.env.world + e.seconds sub.timeout
    let run := e.execute plane.timed factory sub s
    (∃ added, run.2.env.world.commands = s.env.world.commands ++ added ∧
      ∀ t d, (t, d) ∈ added → 0 < d ∧ d ≤ settings.maxExecutionTime ∧ t + d ≤ deadline) ∧
    ∀ i s', e.prepare plane.timed factory sub s = (.ok i, s') → deadline ≤ Clock.now s'.env.world →
      run.2.env.world.commands = s.env.world.commands ∧
      ∀ res, run.1 = .ok res → ∃ milliseconds, res =
        { success := false
          error := s!"Execution timed out after {Seconds.general (e.seconds sub.timeout)} seconds"
          milliseconds } := by
  intro factory deadline run
  have hplane {Q : ℚ × ℚ → Prop} : plane.timed.Besides settings (Runner.Has settings) Q :=
    plane.timed_besides settings Q
  constructor
  · obtain ⟨added, hc, _, hadded⟩ :=
    Engine.execute_upholds e sub hs (fun key => Runner.open_upholds hplane key fun _ => rfl)
      (Runner.inject_upholds hplane _) (Runner.run_meets hmax sub.sections deadline)
      (Runner.memoryUsage_upholds hplane).any (Runner.close_upholds hplane)
    refine ⟨added, hc, fun t d hm => ?_⟩
    have hmeets := hadded (t, d) hm
    exact ⟨hmeets.positive, hmeets.ceiling, hmeets.deadline⟩
  · intro i s' hprepare hlate
    have hpreparing : Site.Upholds (Runner.Has settings) (fun _ => False) (e.prepare plane.timed factory sub)
        fun _ => True :=
      Engine.prepare_upholds (fun key => Runner.open_upholds hplane key fun _ => rfl)
      (Runner.inject_upholds hplane _) (Runner.ready_upholds hplane)
    have hresolving : Site.Upholds (Runner.Has settings) (fun _ => False) (e.resolve plane.timed (e.key sub)
        (e.seconds sub.timeout) (Clock.now s.env.world) (some i) (.timeout Seconds.zero)) fun _ => True :=
      Engine.resolve_upholds (Runner.close_upholds hplane) e _ _ _ _ _
    obtain ⟨hs', hbefore⟩ := hpreparing.calls_eq hs
    rw [hprepare] at hs' hbefore
    obtain ⟨_, hafter⟩ := hresolving.calls_eq hs'
    have hrun : run = _ := Engine.execute_late hprepare hlate
    rw [hrun]
    refine ⟨hafter.trans hbefore, fun res hres => ?_⟩
    obtain ⟨⟨milliseconds, _, hres⟩, _⟩ := Engine.resolve_ok (Prod.ext hres rfl)
    exact ⟨milliseconds, hres⟩

structure Slow where
  now : ℚ := 0

namespace Slow

instance : Clock Slow ℚ where
  now w := w.now
  wall _ := 0

def after {α : Type} (reply : α) : Effect Slow ℚ α :=
  fun env => (.ok reply, { env with world := ⟨env.world.now + 1 / 4⟩ })

def plane : ControlPlane Slow ℚ where
  connect _ := after 0
  create _ _ := after (.text "env")
  inject _ _ _ _ := after ()
  exec _ _ _ := after ⟨0, []⟩
  terminate _ _ _ := after ()
  isRunning _ _ := after true
  memoryUsage _ _ := after (.int 0)
  remove _ _ := after ()
  close _ := after ()

def settings : Settings ℚ where
  image := .text "image"
  memoryLimit := 1
  maxExecutionTime := 2
  workingDir := .text "/work"
  compiler := .text "compiler"
  controlTimeout := 1

def engine : Engine ℚ := { settings }

def submission (timeout : ℚ) : Submission ℚ := { source := .text [109], timeout := some timeout }

def site : Site (Timed Slow ℚ) ℚ := { env := { world := ⟨{}, []⟩ } }

def execution (timeout : ℚ) : Except (Failure ℚ) ExecutionResult × Site (Timed Slow ℚ) ℚ :=
  engine.execute plane.timed (Runner.open plane.timed settings) (submission timeout) site

def preparation (timeout : ℚ) : Except (Failure ℚ) Nat × Site (Timed Slow ℚ) ℚ :=
  engine.prepare plane.timed (Runner.open plane.timed settings) (submission timeout) site

end Slow

theorem execute_deadline_slow :
    0 < Slow.settings.maxExecutionTime ∧ (∀ r ∈ Slow.site.runners, r.settings = Slow.settings) ∧
      (Slow.execution 2).2.env.world.commands = [(3 / 4, 5 / 4)] ∧
      (0 < (5 / 4 : ℚ) ∧ (5 / 4 : ℚ) ≤ Slow.settings.maxExecutionTime ∧ (3 / 4 + 5 / 4 : ℚ) ≤ 0 + 2) ∧
      (Slow.preparation (1 / 2)).1 = .ok 0 ∧ (Slow.execution (1 / 2)).2.env.world.commands = [] ∧
      ∀ res, (Slow.execution (1 / 2)).1 = .ok res →
        ∃ milliseconds, res =
          { success := false, error := "Execution timed out after 0.5 seconds", milliseconds } := by
  have hmax : 0 < Slow.settings.maxExecutionTime := by decide +kernel
  have hs : ∀ r ∈ Slow.site.runners, r.settings = Slow.settings := nofun
  obtain ⟨⟨added, hadded, hmeets⟩, _⟩ :=
    execute_deadline Slow.plane hmax Slow.engine (Slow.submission 2) Slow.site hs
  have hbegun : (Slow.execution 2).2.env.world.commands = [(3 / 4, 5 / 4)] := by decide +kernel
  obtain rfl : added = [(3 / 4, 5 / 4)] := hadded.symm.trans hbegun
  obtain ⟨_, hlate⟩ := execute_deadline Slow.plane hmax Slow.engine (Slow.submission (1 / 2)) Slow.site hs
  have hready : (Slow.preparation (1 / 2)).1 = .ok 0 := rfl
  have htime : Clock.now Slow.site.env.world + Slow.engine.seconds (Slow.submission (1 / 2)).timeout ≤
      Clock.now (Slow.preparation (1 / 2)).2.env.world := by decide +kernel
  obtain ⟨hnone, hanswer⟩ := hlate 0 _ (Prod.ext hready rfl) htime
  have htext : "Execution timed out after 0.5 seconds" =
      s!"Execution timed out after {Seconds.general
        (Slow.engine.seconds (Slow.submission (1 / 2)).timeout)} seconds" := by
    decide +kernel
  rw [htext]
  exact ⟨hmax, hs, hbegun, hmeets _ _ List.mem_cons_self, hready, hnone, hanswer⟩

end Playpen
