import Playpen.Proofs.Runner.History
import Playpen.Proofs.Runner.Invariant

namespace Playpen

open Act (used)

variable {ω τ α : Type}

def PlaneCall.environment? : PlaneCall τ → Option EnvironmentId
  | .connect .. | .create .. | .close .. => none
  | .inject _ id _ _ _ | .exec _ id _ _ | .terminate _ id _ _ | .isRunning _ id _ | .memoryUsage _ id _
  | .remove _ id _ => some id

def PlaneCall.Spares (name : EnvironmentId) (c : PlaneCall τ) : Prop :=
  c.op ≠ .create ∧ c.op ≠ .remove ∧ ∀ id, c.environment? = some id → id = name

theorem PlaneCall.spares_of_op {name : EnvironmentId} {c : PlaneCall τ}
    (h : c.op = .connect ∨ c.op = .close) : c.Spares name := by
  cases c <;> simp [op, Spares, environment?] at h ⊢

namespace Runner

structure Attached (name : EnvironmentId) (r : Runner τ) : Prop where
  named : r.settings.containerName = name
  owns : r.owns = false
  held : ∀ id, r.environment = some id → id = name

theorem Attached.new {settings : Settings τ} (ho : settings.ownsEnvironment = false) (key : SessionKey)
    (link : Link) : ({ key, settings, link } : Runner τ).Attached settings.containerName :=
  ⟨rfl, ho, nofun⟩

variable {name : EnvironmentId}

abbrev Sparing (name : EnvironmentId) (x : RunnerAct (Recorded ω τ) τ α) (V : α → Prop) : Prop :=
  Upholds (Attached name) (PlaneCall.Spares name) x V

variable (plane : ControlPlane ω τ)

theorem new_sparing {settings : Settings τ} (ho : settings.ownsEnvironment = false) (key : SessionKey) :
    Yields (Attached settings.containerName) (PlaneCall.Spares settings.containerName)
      (Runner.new plane.recorded settings key) :=
  new_yields (calls_recorded fun _ => PlaneCall.spares_of_op (.inl rfl)) (Attached.new ho key)

theorem close_sparing : Sparing (ω := ω) name (close plane.recorded) fun _ => True := by
  refine .bind Upholds.runner fun r hr => .ite (fun _ => .pure trivial) fun _ => ?_
  refine .bind (Upholds.update fun q hq => ⟨hq.named, hq.owns, hq.held⟩) fun _ _ => ?_
  refine .ensure ?_ (Upholds.recorded fun reply => ?_)
  · rw [hr.owns]
    exact .pure trivial
  · exact PlaneCall.spares_of_op (.inr rfl)

variable [Seconds τ]

theorem abortRunaway_sparing {id : EnvironmentId} (hid : id = name) :
    Sparing name (abortRunaway plane.recorded id) fun _ => True := by
  refine .bind Upholds.runner fun r _ => .rescue (Upholds.recorded fun reply => ?_) fun e => ?_
  · exact ⟨nofun, nofun, fun _ h => Option.some.inj h ▸ hid⟩
  · exact .ite (fun _ => .bind (Upholds.lift _) fun _ _ => Upholds.quiet fun _ => rfl) fun _ => .throw e

theorem memoryUsage_sparing : Sparing name (memoryUsage plane.recorded) fun _ => True := by
  refine .bind Upholds.runner fun r hr => ?_
  cases he : r.environment with
  | none => exact .pure trivial
  | some id =>
    refine .rescue (.bind (Upholds.recorded fun reply => ?_) fun v _ => ?_) fun e => ?_
    · exact ⟨nofun, nofun, fun _ h => Option.some.inj h ▸ hr.held id he⟩
    · exact .bind (Upholds.lift _) fun n _ => .pure trivial
    · exact .ite (fun _ => .bind (Upholds.note _ _) fun _ _ => .pure trivial) fun _ => .throw e

variable [Clock ω τ]

theorem start_sparing : Sparing name (start plane.recorded) fun _ => True := by
  refine .bind Upholds.runner fun r hr => .ite (fun _ => .pure trivial) fun _ => .ite ?_ fun _ => ?_
  · intro ho
    simp [hr.owns] at ho
  · refine .bind (Upholds.recorded fun reply => ?_) fun running _ => ?_
    · exact ⟨nofun, nofun, fun id hid => Option.some.inj hid ▸ hr.named⟩
    refine .ite (fun _ => .bind (Upholds.lift _) fun _ _ => ?_) fun _ => ?_
    · exact .bind (V := fun _ => False) (.throw _) fun _ h => h.elim
    · refine .bind (Upholds.update fun q hq => ⟨hq.named, hq.owns, ?_⟩) fun _ _ => Upholds.note _ _
      rintro id ⟨⟩
      exact hr.named

theorem requireEnvironment_sparing : Sparing name (requireEnvironment plane.recorded) fun id => id = name := by
  refine .bind Upholds.runner fun r _ => .ite (fun _ => ?_) fun _ => ?_
  · exact .bind (Upholds.lift _) fun _ _ => .bind (V := fun _ => False) (.throw _) fun _ h => h.elim
  · refine .ite (fun _ => .bind (start_sparing plane) fun _ _ => ?_) fun _ => ?_
    all_goals
      refine .bind Upholds.runner fun r hr => ?_
      cases he : r.environment with
      | some id => exact .pure (hr.held id he)
      | none => exact .throw _

theorem inject_sparing (source : Raw) : Sparing name (inject plane.recorded source) fun _ => True := by
  refine .bind (requireEnvironment_sparing plane) fun id hid => .bind Upholds.runner fun r _ => ?_
  refine .bind (Upholds.lift _) fun data _ => .bind (Upholds.quiet fun _ => rfl) fun wall _ => ?_
  refine .bind (Upholds.lift _) fun archive _ => ?_
  exact Upholds.timed _ (calls_recorded fun reply => ⟨nofun, nofun, fun _ h => Option.some.inj h ▸ hid⟩)

theorem verifyIfSuspect_sparing : Sparing name (verifyIfSuspect plane.recorded) fun _ => True := by
  refine .bind Upholds.runner fun r hr => ?_
  split
  · rename_i id _ he
    refine .bind (Upholds.recorded fun reply => ?_) fun running _ => .ite (fun _ => ?_) fun _ =>
      .ite (fun _ => ?_) ?_
    · exact ⟨nofun, nofun, fun _ h => Option.some.inj h ▸ hr.held id he⟩
    · exact Upholds.update fun q hq => ⟨hq.named, hq.owns, hq.held⟩
    · exact .bind (Upholds.lift _) fun _ _ => .throw _
    · intro ho
      simp [hr.owns] at ho
  · exact .pure trivial

theorem execAborting_sparing {id : EnvironmentId} (hid : id = name) (command : Command τ) :
    Sparing name (execAborting plane.recorded id command) fun _ => True := by
  refine .bind Upholds.runner fun r _ => .rescue (Upholds.timed _ (calls_recorded fun reply => ?_)) fun e =>
    .ite (fun _ => ?_) fun _ => .throw e
  · exact ⟨nofun, nofun, fun _ h => Option.some.inj h ▸ hid⟩
  · refine .bind (Upholds.update fun q hq => ⟨hq.named, hq.owns, hq.held⟩) fun _ _ => ?_
    refine .bind (Upholds.note _ _) fun _ _ => ?_
    exact .bind (abortRunaway_sparing plane hid) fun _ _ => .throw e

theorem run_sparing (sections : Bool) (deadline : Option τ) :
    Sparing name (run plane.recorded sections deadline) fun _ => True := by
  refine .bind (verifyIfSuspect_sparing plane) fun _ _ => ?_
  refine .bind (requireEnvironment_sparing plane) fun id hid => ?_
  refine .bind Upholds.runner fun r _ => .bind (Upholds.quiet fun _ => rfl) fun now _ => ?_
  refine .bind (Upholds.lift _) fun timeout _ => ?_
  refine .bind (Upholds.lift _) fun line _ => .bind (Upholds.note _ _) fun _ _ => ?_
  refine .bind (execAborting_sparing plane hid _) fun capture _ => ?_
  exact .bind (Upholds.lift _) fun sanitized _ => Upholds.lift _

theorem toolchainVersion_sparing (timeout : Option τ) :
    Sparing name (toolchainVersion plane.recorded timeout) fun _ => True := by
  refine .bind (verifyIfSuspect_sparing plane) fun _ _ => ?_
  refine .bind (requireEnvironment_sparing plane) fun id hid => ?_
  refine .bind Upholds.runner fun r _ => .bind (Upholds.lift _) fun line _ => ?_
  refine .bind (Upholds.recorded fun reply => ?_) fun capture _ => ?_
  · exact ⟨nofun, nofun, fun _ h => Option.some.inj h ▸ hid⟩
  · exact .ite (fun _ => .bind (V := fun _ => True) (.throw _) fun _ _ => .pure trivial) fun _ => .pure trivial

theorem validateToolchain_sparing : Sparing name (validateToolchain plane.recorded) fun _ => True :=
  .bind (toolchainVersion_sparing plane none) fun _ _ => .ite (fun _ => .throw _) fun _ => .pure trivial

theorem act_sparing (u : Use ω τ) : Sparing name (u.act plane) fun _ => True := by
  cases u with
  | start => exact start_sparing plane
  | inject source => exact inject_sparing plane source
  | run sections deadline => exact .bind (run_sparing plane sections deadline) fun _ _ => .pure trivial
  | toolchainVersion timeout => exact .bind (toolchainVersion_sparing plane timeout) fun _ _ => .pure trivial
  | validateToolchain => exact validateToolchain_sparing plane
  | memoryUsage => exact .bind (memoryUsage_sparing plane) fun _ _ => .pure trivial
  | close => exact close_sparing plane
  | outside change => exact .modify (fun _ => rfl) fun _ h => h

theorem open_sparing {settings : Settings τ} (ho : settings.ownsEnvironment = false) (key : SessionKey) :
    Yields (Attached settings.containerName) (PlaneCall.Spares settings.containerName)
      (Runner.open plane.recorded settings key) :=
  open_yields (new_sparing plane ho key) (start_sparing plane)
    fun _ => calls_recorded fun _ => PlaneCall.spares_of_op (.inr rfl)

end Runner

end Playpen
