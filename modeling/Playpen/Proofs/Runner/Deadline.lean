import Playpen.Proofs.Number.Rational
import Playpen.Proofs.Plane.Timed

namespace Playpen.Runner

open Act (Does used)

variable {ω : Type}

structure Meets (ceiling deadline : ℚ) (command : ℚ × ℚ) : Prop where
  positive : 0 < command.2
  ceiling : command.2 ≤ ceiling
  deadline : command.1 + command.2 ≤ deadline

theorem timeLimit_late {ceiling deadline now : ℚ} (h : deadline ≤ now) :
    timeLimit ceiling now (some deadline) = .error (.timeout Seconds.zero) := by
  have hleft : Seconds.le (Seconds.sub deadline now) (Seconds.zero : ℚ) = true :=
    decide_eq_true (sub_nonpos.mpr h)
  simp only [timeLimit, hleft, ↓reduceIte]

theorem timeLimit_meets {ceiling deadline now t : ℚ} (hc : 0 < ceiling)
    (h : timeLimit ceiling now (some deadline) = .ok t) : Meets ceiling deadline (now, t) := by
  by_cases hlate : deadline ≤ now
  · rw [timeLimit_late hlate] at h
    cases h
  · have hleft : 0 < deadline - now := sub_pos.mpr (not_le.mp hlate)
    have hgoes : Seconds.le (Seconds.sub deadline now) (Seconds.zero : ℚ) = false :=
      decide_eq_false (not_le.mpr hleft)
    simp only [timeLimit, hgoes, Bool.false_eq_true, ↓reduceIte, Except.ok.injEq] at h
    obtain rfl : t = min ceiling (deadline - now) := h.symm.trans (Seconds.min_eq _ _)
    constructor
    · exact lt_min hc hleft
    · exact min_le_left _ _
    · have := min_le_right ceiling (deadline - now)
      show now + min ceiling (deadline - now) ≤ deadline
      linarith

theorem does_note {τ γ : Type} [Recording ω γ] {s : Seat ω τ} (level : Level)
    (message : String → Except Misuse String) :
    Does (Seat.note level message) s fun _ added s' =>
      added = [] ∧ s'.runner = s.runner ∧ s'.env.world = s.env.world := by
  refine .step (t := s) rfl rfl ?_
  show Does (Seat.effect (Env.noteUsing level (s.runner.key.display >>= message))) s _
  cases s.runner.key.display >>= message with
  | error m => exact .of_eq rfl rfl ⟨rfl, rfl, rfl⟩
  | ok t => exact .of_eq rfl rfl ⟨rfl, rfl, rfl⟩

section

variable {τ : Type} [Seconds τ] [Clock ω τ] {plane : ControlPlane ω τ} {settings : Settings τ}
  {s : Seat (Timed ω τ) τ}

theorem execAborting_begins (id : EnvironmentId) (command : Command τ) (hs : Has settings s.runner) :
    Does (execAborting plane.timed id command) s fun _ added s' =>
      Has settings s'.runner ∧ added = [(Clock.now s.env.world, command.timeout)] := by
  have hexec : Does (Env.timed "sandbox.run" (plane.timed.exec s.runner.link id command)) s.env fun _ added _ =>
      added = [(Clock.now s.env.world, command.timeout)] :=
    Env.does_timed (Env.does_beginning.mono fun _ _ _ h => h)
  refine .step (t := s) rfl rfl (.rescue (Seat.does_effect hexec) ?_ ?_)
  · rintro capture added s₁ ⟨hr, hadded⟩
    exact ⟨(congrArg (Has settings) hr).mpr hs, hadded⟩
  · rintro f added s₁ ⟨hr, rfl⟩
    have hhandled : Upholds (Has settings) (fun _ => False) (do
        if f.isA .timeout then
          Seat.update fun r => { r with suspect := true }
          Seat.note .warning fun key => .ok <|
            s!"Session '{key}' timed out after {Seconds.fixed 2 command.timeout}s; killing user processes"
          abortRunaway plane.timed id
        throw f : RunnerAct (Timed ω τ) τ Capture) fun _ => True := by
      refine .ite (fun _ => ?_) fun _ => .throw f
      refine .bind (Upholds.update fun _ h => h) fun _ _ => .bind (Upholds.note _ _) fun _ _ => ?_
      exact .bind (abortRunaway_upholds (plane.timed_besides settings _) id) fun _ _ => .throw f
    refine (hhandled s₁ ((congrArg (Has settings) hr).mpr hs)).mono ?_
    rintro _ more s₂ ⟨hs₂, _, hmore⟩
    rw [List.eq_nil_iff_forall_not_mem.mpr hmore]
    exact ⟨hs₂, rfl⟩

end

def ready {ω τ : Type} [Seconds τ] [Clock ω τ] (plane : ControlPlane ω τ) : RunnerAct ω τ EnvironmentId := do
  verifyIfSuspect plane
  requireEnvironment plane

section

variable {τ : Type} [Seconds τ] [Clock ω τ] {plane : ControlPlane ω τ} {settings : Settings τ}

theorem ready_upholds {γ : Type} [Recording ω γ] {Q : γ → Prop} (h : plane.Besides settings (Has settings) Q) :
    Upholds (Has settings) Q (ready plane) fun _ => True :=
  .bind (verifyIfSuspect_upholds h) fun _ _ => requireEnvironment_upholds h

def runIn (plane : ControlPlane ω τ) (sections : Bool) (deadline : Option τ) (id : EnvironmentId) :
    RunnerAct ω τ RunOutcome := do
  let r ← Act.read Seat.runner
  let now ← Seat.effect Env.now
  let timeout ← Act.lift (timeLimit r.settings.maxExecutionTime now deadline)
  let template := if sections then r.settings.generatedCodeCommand else r.settings.runCommand
  let line := String.ofList (← used (r.settings.expand template))
  Seat.note .debug fun key => .ok s!"Session '{key}' running: {line}"
  let capture ← execAborting plane id ⟨.text line, r.settings.user, r.settings.workingDir, timeout⟩
  let sanitized ← used (r.settings.sanitized sections (.bytes capture.output))
  Act.lift (classify r.settings.memoryLimit capture.exitCode sanitized)

theorem run_eq (plane : ControlPlane ω τ) (sections : Bool) (deadline : Option τ) :
    run plane sections deadline = ready plane >>= runIn plane sections deadline := by
  unfold run ready
  rw [bind_assoc]
  rfl

end

variable [Clock ω ℚ] {plane : ControlPlane ω ℚ} {settings : Settings ℚ}

theorem runIn_meets (hmax : 0 < settings.maxExecutionTime) (sections : Bool) (deadline : ℚ) (id : EnvironmentId) :
    Upholds (Has settings) (Meets settings.maxExecutionTime deadline)
      (runIn plane.timed sections (some deadline) id) fun _ => True := by
  intro s hs
  have hread : (Act.read Seat.runner : RunnerAct (Timed ω ℚ) ℚ _) s = (.ok s.runner, s) := rfl
  have hnow : (Seat.effect Env.now : RunnerAct (Timed ω ℚ) ℚ ℚ) s = (.ok (Clock.now s.env.world), s) := rfl
  refine .step hread rfl (.step hnow rfl ?_)
  cases hlimit : timeLimit s.runner.settings.maxExecutionTime (Clock.now s.env.world) (some deadline) with
  | error f => exact .stop (t := s) rfl rfl ⟨hs, nofun, List.forall_mem_nil _⟩
  | ok t =>
    have hmeets : Meets settings.maxExecutionTime deadline (Clock.now s.env.world, t) := by
      rw [hs] at hlimit
      exact timeLimit_meets hmax hlimit
    refine .step (t := s) rfl rfl ?_
    -- Until the command is begun, nothing but the log changes.
    cases hline : s.runner.settings.expand
        (if sections then s.runner.settings.generatedCodeCommand else s.runner.settings.runCommand) with
    | error m => exact .stop (t := s) (congrArg (used · s) hline) rfl ⟨hs, nofun, List.forall_mem_nil _⟩
    | ok line =>
      refine .step (t := s) (congrArg (used · s) hline) rfl (.bind (does_note .debug _) ?_ ?_)
      · rintro _ _ s₁ ⟨rfl, hrunner, hworld⟩
        have hs₁ : Has settings s₁.runner := (congrArg (Has settings) hrunner).mpr hs
        have hrest (capture : Capture) : Upholds (Has settings) (Meets settings.maxExecutionTime deadline) (do
            let sanitized ← used (s.runner.settings.sanitized sections (.bytes capture.output))
            Act.lift (classify s.runner.settings.memoryLimit capture.exitCode sanitized) :
              RunnerAct (Timed ω ℚ) ℚ RunOutcome) fun _ => True :=
          .bind (Upholds.lift _) fun _ _ => Upholds.lift _
        refine .bind (execAborting_begins id _ hs₁) ?_ ?_
        · rintro capture _ s₂ ⟨hs₂, rfl⟩
          refine (hrest capture s₂ hs₂).mono ?_
          rintro out more s₃ ⟨hs₃, _, hmore⟩
          rw [hworld]
          exact ⟨hs₃, fun _ _ => trivial, List.forall_mem_cons.mpr ⟨hmeets, hmore⟩⟩
        · rintro f _ s₂ ⟨hs₂, rfl⟩
          rw [hworld]
          exact ⟨hs₂, nofun, List.forall_mem_singleton.mpr hmeets⟩
      · rintro f _ s₁ ⟨rfl, hrunner, _⟩
        exact ⟨(congrArg (Has settings) hrunner).mpr hs, nofun, List.forall_mem_nil _⟩

theorem run_meets (hmax : 0 < settings.maxExecutionTime) (sections : Bool) (deadline : ℚ) :
    Upholds (Has settings) (Meets settings.maxExecutionTime deadline)
      (run plane.timed sections (some deadline)) fun _ => True := by
  rw [run_eq]
  exact .bind (ready_upholds (plane.timed_besides settings _)) fun id _ => runIn_meets hmax sections deadline id

theorem run_late {s s₁ : Seat ω ℚ} {id : EnvironmentId} (sections : Bool) {deadline : ℚ}
    (hready : ready plane s = (.ok id, s₁)) (hlate : deadline ≤ Clock.now s₁.env.world) :
    run plane sections (some deadline) s = (.error (.timeout Seconds.zero), s₁) := by
  rw [run_eq, Act.bind_ok hready]
  have hread : (Act.read Seat.runner : RunnerAct ω ℚ _) s₁ = (.ok s₁.runner, s₁) := rfl
  have hnow : (Seat.effect Env.now : RunnerAct ω ℚ ℚ) s₁ = (.ok (Clock.now s₁.env.world), s₁) := rfl
  unfold runIn
  rw [Act.bind_ok hread, Act.bind_ok hnow, timeLimit_late hlate]
  rfl

end Playpen.Runner
