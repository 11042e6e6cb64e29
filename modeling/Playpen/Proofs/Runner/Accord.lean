import Playpen.Proofs.Runner.Calls
import Playpen.Proofs.Runner.Invariant

namespace Playpen

open Act (Does)

variable {ω τ : Type}

def Settings.Allots [Seconds τ] (settings : Settings τ) (t : τ) : Prop :=
  t = settings.controlTimeout ∨
    ∃ now deadline, Runner.timeLimit settings.maxExecutionTime now deadline = .ok t

def PlaneCall.Accords [Seconds τ] (settings : Settings τ) : PlaneCall τ → Prop
  | .connect s _ => s = settings
  | .create _ spec _ _ => ∃ name, spec = Runner.spec settings name
  | .inject _ _ dest _ _ => dest = settings.workingDir
  | .exec _ _ command _ => command.user = settings.user ∧ command.workingDir = settings.workingDir ∧
      settings.Allots command.timeout
  | .terminate _ _ user _ => user = settings.user
  | .isRunning .. | .memoryUsage .. | .remove .. | .close .. => True

def Runner.Has (settings : Settings τ) (r : Runner τ) : Prop := r.settings = settings

structure Runner.Steady (settings : Settings τ) (I : Runner τ → Prop) : Prop where
  has {r : Runner τ} : I r → Has settings r
  environment {r : Runner τ} (environment : Option EnvironmentId) : I r → I { r with environment }
  suspect {r : Runner τ} (suspect : Bool) : I r → I { r with suspect }
  closed {r : Runner τ} (closed : Bool) : I r → I { r with closed }

theorem Runner.has_steady (settings : Settings τ) : Steady settings (Has settings) :=
  ⟨id, fun _ h => h, fun _ h => h, fun _ h => h⟩

structure ControlPlane.Besides {ω γ : Type} [Recording ω γ] (plane : ControlPlane ω τ) (settings : Settings τ)
    (I : Runner τ → Prop) (Q : γ → Prop) : Prop extends Runner.Steady settings I where
  connect : Runner.Calls Q (plane.connect settings)
  create {r : Runner τ} (hr : I r) {start key : String} (hn : r.nameParts = .ok (start, key)) (env : Env ω τ) :
    Does (plane.create r.link (Runner.spec settings (Runner.environmentName start key env.drawn))) env
      fun _ added _ => ∀ c ∈ added, Q c
  inject (l : Link) (id : EnvironmentId) (archive : Utf8.Bytes) :
    Runner.Calls Q (plane.inject l id settings.workingDir archive)
  terminate (l : Link) (id : EnvironmentId) : Runner.Calls Q (plane.terminate l id settings.user)
  isRunning (l : Link) (id : EnvironmentId) : Runner.Calls Q (plane.isRunning l id)
  memoryUsage (l : Link) (id : EnvironmentId) : Runner.Calls Q (plane.memoryUsage l id)
  remove (l : Link) (id : EnvironmentId) : Runner.Calls Q (plane.remove l id)
  close (l : Link) : Runner.Calls Q (plane.close l)

theorem ControlPlane.recorded_besides [Seconds τ] (plane : ControlPlane ω τ) {settings : Settings τ}
    {Q : PlaneCall τ → Prop} (hQ : ∀ c, c.Accords settings → c.op ≠ .exec → Q c) :
    plane.recorded.Besides settings (Runner.Has settings) Q where
  toSteady := Runner.has_steady settings
  connect := Runner.calls_recorded fun _ => hQ _ rfl nofun
  create _ _ _ _ env := by
    refine (Env.does_create plane _ _ env).mono ?_
    rintro reply _ _ rfl
    exact List.forall_mem_singleton.mpr (hQ _ ⟨_, rfl⟩ nofun)
  inject _ _ _ := Runner.calls_recorded fun _ => hQ _ rfl nofun
  terminate _ _ := Runner.calls_recorded fun _ => hQ _ rfl nofun
  isRunning _ _ := Runner.calls_recorded fun _ => hQ _ trivial nofun
  memoryUsage _ _ := Runner.calls_recorded fun _ => hQ _ trivial nofun
  remove _ _ := Runner.calls_recorded fun _ => hQ _ trivial nofun
  close _ := Runner.calls_recorded fun _ => hQ _ trivial nofun

namespace Runner

variable {γ : Type} [Recording ω γ] {plane : ControlPlane ω τ} {settings : Settings τ} {I : Runner τ → Prop}
  {Q : γ → Prop} (h : plane.Besides settings I Q)
include h

theorem close_upholds : Upholds I Q (close plane) fun _ => True := by
  refine .bind Upholds.runner fun r _ => .ite (fun _ => .pure trivial) fun _ => ?_
  refine .bind (Upholds.update fun _ hr => h.closed true hr) fun _ _ => ?_
  refine .ensure ?_ (Upholds.effect (h.close _))
  cases r.owns with
  | false => exact .pure trivial
  | true =>
    cases r.environment with
    | none => exact .pure trivial
    | some id =>
      refine .bind (Upholds.update fun _ hr => h.environment none hr) fun _ _ => ?_
      exact .bind (Upholds.effect (h.remove _ _)) fun _ _ => Upholds.note _ _

variable [Seconds τ]

theorem abortRunaway_upholds (id : EnvironmentId) : Upholds I Q (abortRunaway plane id) fun _ => True := by
  refine .bind Upholds.runner fun r hr => .rescue ?_ fun e => ?_
  · rw [h.has hr]
    exact Upholds.effect (h.terminate _ _)
  · exact .ite (fun _ => .bind (Upholds.lift _) fun _ _ => Upholds.quiet fun _ => rfl) fun _ => .throw e

theorem memoryUsage_upholds : Upholds I Q (memoryUsage plane) (0 ≤ ·) := by
  refine .bind Upholds.runner fun r _ => ?_
  cases r.environment with
  | none => exact .pure (Int.le_refl 0)
  | some id =>
    refine .rescue (.bind (Upholds.effect (h.memoryUsage _ _)) fun v _ => ?_) fun e => ?_
    · exact .bind (Upholds.lift _) fun n _ => .pure (Int.le_max_left 0 n)
    · refine .ite (fun _ => .bind (Upholds.note _ _) fun _ _ => .pure (Int.le_refl 0)) fun _ => .throw e

variable [Clock ω τ]

theorem createEnvironment_upholds : Upholds I Q (createEnvironment plane) fun _ => True := by
  refine .bind Upholds.runner fun r hr => ?_
  rcases hparts : r.nameParts with m | ⟨start, key⟩
  · exact .bind (V := fun _ => False) (.throw _) fun _ h => h.elim
  refine .bind (V := (· = (start, key))) (.pure rfl) ?_
  rintro _ rfl
  intro s hs
  let drawn : Seat ω τ := ⟨s.runner, { s.env with drawn := s.env.drawn + 1 }⟩
  refine .step (t := drawn) (a := drawn.env.drawn) rfl rfl ?_
  rw [h.has hr]
  refine .bind (Seat.does_effect (Env.does_timed (h.create hr hparts drawn.env))) ?_ ?_
  · rintro id added s₁ ⟨hsame, hadded⟩
    have hs₁ : I s₁.runner := (congrArg I hsame).mpr hs
    refine (Upholds.note_pure (Q := Q) .info _ id s₁ hs₁).mono ?_
    rintro out more s₂ ⟨hs₂, hv, hmore⟩
    exact ⟨hs₂, hv, List.forall_mem_append.mpr ⟨hadded, hmore⟩⟩
  · rintro e added s₁ ⟨hsame, hadded⟩
    exact ⟨(congrArg I hsame).mpr hs, nofun, hadded⟩

theorem start_upholds : Upholds I Q (start plane) fun _ => True := by
  refine .bind Upholds.runner fun r _ => .ite (fun _ => .pure trivial) fun _ => .ite (fun _ => ?_) fun _ => ?_
  · exact .bind (createEnvironment_upholds h) fun id _ => Upholds.update fun _ hr => h.environment (some id) hr
  · refine .bind (Upholds.effect (h.isRunning _ _)) fun running _ => .ite (fun _ => ?_) fun _ => ?_
    · exact .bind (Upholds.lift _) fun _ _ => .bind (V := fun _ => False) (.throw _) fun _ h => h.elim
    · exact .bind (Upholds.update fun _ hr => h.environment _ hr) fun _ _ => Upholds.note _ _

theorem requireEnvironment_upholds : Upholds I Q (requireEnvironment plane) fun _ => True := by
  refine .bind Upholds.runner fun r _ => .ite (fun _ => ?_) fun _ => ?_
  · exact .bind (Upholds.lift _) fun _ _ => .bind (V := fun _ => False) (.throw _) fun _ h => h.elim
  · refine .ite (fun _ => .bind (start_upholds h) fun _ _ => ?_) fun _ => ?_
    all_goals
      refine .bind Upholds.runner fun r _ => ?_
      cases r.environment with
      | some id => exact .pure trivial
      | none => exact .throw _

theorem inject_upholds (source : Raw) : Upholds I Q (inject plane source) fun _ => True := by
  refine .bind (requireEnvironment_upholds h) fun id _ => .bind Upholds.runner fun r hr => ?_
  refine .bind (Upholds.lift _) fun data _ => .bind (Upholds.quiet fun _ => rfl) fun wall _ => ?_
  refine .bind (Upholds.lift _) fun archive _ => ?_
  rw [h.has hr]
  exact Upholds.timed _ (h.inject _ _ _)

theorem verifyIfSuspect_upholds : Upholds I Q (verifyIfSuspect plane) fun _ => True := by
  refine .bind Upholds.runner fun r _ => ?_
  split
  · refine .bind (Upholds.effect (h.isRunning _ _)) fun running _ => .ite (fun _ => ?_) fun _ =>
      .ite (fun _ => ?_) fun _ => ?_
    · exact Upholds.update fun _ hr => h.suspect false hr
    · exact .bind (Upholds.lift _) fun _ _ => .throw _
    · refine .bind (Upholds.update fun _ hr => h.environment none hr) fun _ _ => .bind (Upholds.lift _)
        fun place _ => ?_
      refine .bind (Upholds.quiet fun _ => rfl) fun _ _ => .bind (V := fun _ => True) ?_ fun _ _ => ?_
      · exact .rescue (Upholds.effect (h.remove _ _)) fun e =>
          .ite (fun _ => Upholds.quiet fun _ => rfl) fun _ => .throw e
      · exact .bind (createEnvironment_upholds h) fun fresh _ =>
          Upholds.update fun _ hr => h.suspect false (h.environment (some fresh) hr)
  · exact .pure trivial

theorem open_upholds (key : SessionKey) (hnew : ∀ link, I { key, settings, link }) :
    Yields I Q (Runner.open plane settings key) :=
  open_yields (new_yields h.connect hnew) (start_upholds h) h.close

theorem execAborting_upholds (id : EnvironmentId) {command : Command τ}
    (hexec : ∀ l, Calls Q (plane.exec l id command)) : Upholds I Q (execAborting plane id command) fun _ => True := by
  refine .bind Upholds.runner fun r _ => .rescue (Upholds.timed _ (hexec _)) fun e =>
    .ite (fun _ => ?_) fun _ => .throw e
  refine .bind (Upholds.update fun _ hr => h.suspect true hr) fun _ _ => .bind (Upholds.note _ _) fun _ _ => ?_
  exact .bind (abortRunaway_upholds h id) fun _ _ => .throw e

theorem run_upholds (hexec : ∀ l id line timeout, settings.Allots timeout →
      Calls Q (plane.exec l id ⟨line, settings.user, settings.workingDir, timeout⟩))
    (sections : Bool) (deadline : Option τ) : Upholds I Q (run plane sections deadline) fun _ => True := by
  refine .bind (verifyIfSuspect_upholds h) fun _ _ => .bind (requireEnvironment_upholds h) fun id _ => ?_
  refine .bind Upholds.runner fun r hr => .bind (Upholds.quiet fun _ => rfl) fun now _ => ?_
  rw [h.has hr]
  refine .bind (V := settings.Allots) (.lift _ fun t ht => .inr ⟨now, deadline, ht⟩) fun timeout ht => ?_
  refine .bind (Upholds.lift _) fun line _ => .bind (Upholds.note _ _) fun _ _ => ?_
  refine .bind (execAborting_upholds h id fun l => hexec l id _ timeout ht) fun capture _ => ?_
  exact .bind (Upholds.lift _) fun sanitized _ => Upholds.lift _

theorem toolchainVersion_upholds {timeout : Option τ} (hexec : ∀ l id line t,
      t = settings.controlTimeout ∨ timeout = some t →
        Calls Q (plane.exec l id ⟨line, settings.user, settings.workingDir, t⟩)) :
    Upholds I Q (toolchainVersion plane timeout) fun _ => True := by
  refine .bind (verifyIfSuspect_upholds h) fun _ _ => .bind (requireEnvironment_upholds h) fun id _ => ?_
  refine .bind Upholds.runner fun r hr => .bind (Upholds.lift _) fun line _ => ?_
  rw [h.has hr]
  refine .bind (Upholds.effect (hexec _ _ _ _ ?_)) fun capture _ => ?_
  · cases timeout with
    | none => exact .inl rfl
    | some t =>
      dsimp only
      split
      · exact .inl rfl
      · exact .inr rfl
  · exact .ite (fun _ => .bind (V := fun _ => True) (.throw _) fun _ _ => .pure trivial) fun _ => .pure trivial

end Runner

end Playpen
