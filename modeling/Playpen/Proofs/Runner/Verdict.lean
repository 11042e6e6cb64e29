import Playpen.Proofs.Runner.Accord

namespace Playpen

open Act (Does used)

variable {ω τ α β : Type}

def PlaneCall.captured? : PlaneCall τ → Option Capture
  | .exec _ _ _ (.ok capture) => some capture
  | _ => none

theorem PlaneCall.captured?_eq_none [Seconds τ] {settings : Settings τ} (c : PlaneCall τ)
    (_ : c.Accords settings) (h : c.op ≠ .exec) : c.captured? = none := by
  cases c <;> simp [op, captured?] at h ⊢

theorem PlaneCall.captured_eq_nil {calls : List (PlaneCall τ)} (h : ∀ c ∈ calls, c.captured? = none) :
    calls.filterMap PlaneCall.captured? = [] := List.filterMap_eq_nil_iff.mpr h

def Settings.judged (settings : Settings τ) (sections : Bool) (capture : Capture) :
    Except (Failure τ) RunOutcome :=
  match settings.sanitized sections (.bytes capture.output) with
  | .error m => .error m.failure
  | .ok t => Runner.classify settings.memoryLimit capture.exitCode t

namespace Runner

theorem classify_ok {limit exitCode : Int} {t : Sanitized} {outcome : RunOutcome}
    (h : (classify limit exitCode t : Except (Failure τ) RunOutcome) = .ok outcome) :
    exitCode = 0 ∧ outcome = ⟨String.ofList t.program, String.ofList t.generated, exitCode, t.hasOutput⟩ := by
  unfold classify at h
  dsimp only at h
  split at h
  · split at h <;> cases h
  · split at h
    · cases h
    · rename_i hzero
      exact ⟨Decidable.not_not.mp hzero, (Except.ok.inj h).symm⟩

theorem classify_error {limit exitCode : Int} {t : Sanitized} {f : Failure τ}
    (h : classify limit exitCode t = .error f) :
    let diagnostics := if t.hasOutput then String.ofList t.program else ""
    exitCode ≠ 0 ∧ (exitCode ≠ killedExitCode → f = .process exitCode diagnostics) ∧
      (exitCode = killedExitCode → f = if Scalar.isWritable (limit.fdiv Failure.mebibyte) then
        .memoryLimit exitCode diagnostics limit else Misuse.tooLong.failure) := by
  unfold classify at h
  dsimp only at h ⊢
  by_cases hkilled : exitCode = killedExitCode
  · refine ⟨by rw [hkilled]; decide, fun hn => absurd hkilled hn, fun _ => ?_⟩
    rw [if_pos hkilled] at h
    split at h
    · rename_i hwritable
      rw [if_pos hwritable]
      exact (Except.error.inj h).symm
    · rename_i hlong
      rw [if_neg hlong]
      exact (Except.error.inj h).symm
  · rw [if_neg hkilled] at h
    split at h
    · rename_i hfailed
      exact ⟨hfailed, fun _ => (Except.error.inj h).symm, fun hk => absurd hk hkilled⟩
    · cases h

variable {settings : Settings τ} {sections : Bool}

def Rules (settings : Settings τ) (sections : Bool) (added : List (PlaneCall τ))
    (out : Except (Failure τ) RunOutcome) : Prop :=
  added.filterMap PlaneCall.captured? = [] ∧ (∃ f, out = .error f) ∨
    ∃ capture, added.filterMap PlaneCall.captured? = [capture] ∧ out = settings.judged sections capture

theorem Rules.after {first more : List (PlaneCall τ)} {out : Except (Failure τ) RunOutcome}
    (h : Rules settings sections more out) (hfirst : ∀ c ∈ first, c.captured? = none) :
    Rules settings sections (first ++ more) out := by
  unfold Rules
  rw [List.filterMap_append, PlaneCall.captured_eq_nil hfirst, List.nil_append]
  exact h

def Judges (settings : Settings τ) (sections : Bool) (x : RunnerAct (Recorded ω τ) τ RunOutcome) : Prop :=
  ∀ s, Has settings s.runner → Does x s fun out added s' =>
    Has settings s'.runner ∧ Rules settings sections added out

theorem Judges.after {x : RunnerAct (Recorded ω τ) τ α} {f : α → RunnerAct (Recorded ω τ) τ RunOutcome}
    {V : α → Prop} (hx : Upholds (Has settings) (·.captured? = none) x V)
    (hf : ∀ a, V a → Judges settings sections (f a)) : Judges settings sections (x >>= f) := by
  intro s hs
  refine .bind (hx s hs) ?_ ?_
  · rintro a added s₁ ⟨hs₁, hv, hadded⟩
    refine (hf a (hv a rfl) s₁ hs₁).mono ?_
    rintro out more s₂ ⟨hs₂, hrules⟩
    exact ⟨hs₂, hrules.after hadded⟩
  · rintro e added s₁ ⟨hs₁, _, hadded⟩
    exact ⟨hs₁, .inl ⟨PlaneCall.captured_eq_nil hadded, e, rfl⟩⟩

variable [Seconds τ] [Clock ω τ] (plane : ControlPlane ω τ)

theorem execAborting_does_capture (id : EnvironmentId) (command : Command τ) {s : Seat (Recorded ω τ) τ}
    (hs : Has settings s.runner) :
    Does (execAborting plane.recorded id command) s fun out added s' => Has settings s'.runner ∧
      ((∃ f, out = .error f ∧ ∀ c ∈ added, c.captured? = none) ∨
        ∃ capture, out = .ok capture ∧ added.filterMap PlaneCall.captured? = [capture]) := by
  refine .step (t := s) rfl rfl ?_
  refine .rescue (M := fun out added s' => Has settings s'.runner ∧ ∃ l, added = [.exec l id command out])
    ?_ ?_ ?_
  · refine (Seat.does_effect (Env.does_timed Env.does_recorded)).mono ?_
    rintro out added s' ⟨hr, rfl⟩
    exact ⟨(congrArg (Has settings) hr).mpr hs, _, rfl⟩
  · rintro capture _ s' ⟨hs', l, rfl⟩
    exact ⟨hs', .inr ⟨capture, rfl, rfl⟩⟩
  · rintro e _ s' ⟨hs', l, rfl⟩
    have hnone : ∀ c ∈ [PlaneCall.exec l id command (.error e)], c.captured? = none := by
      simp [PlaneCall.captured?]
    have hhandled : Upholds (Has settings) (·.captured? = none) (do
        if e.isA .timeout then
          Seat.update fun r => { r with suspect := true }
          Seat.note .warning fun key => .ok <|
            s!"Session '{key}' timed out after {Seconds.fixed 2 command.timeout}s; killing user processes"
          abortRunaway plane.recorded id
        throw e : RunnerAct (Recorded ω τ) τ Capture) fun _ => False := by
      refine .ite (fun _ => ?_) fun _ => .throw e
      refine .bind (Upholds.update fun _ h => h) fun _ _ => .bind (Upholds.note _ _) fun _ _ => ?_
      exact .bind (abortRunaway_upholds (plane.recorded_besides PlaneCall.captured?_eq_none) id) fun _ _ => .throw e
    refine (hhandled s' hs').mono ?_
    rintro out more s'' ⟨hs'', hout, hmore⟩
    cases out with
    | ok capture => exact (hout capture rfl).elim
    | error f => exact ⟨hs'', .inl ⟨f, rfl, List.forall_mem_append.mpr ⟨hnone, hmore⟩⟩⟩

theorem run_judges (deadline : Option τ) : Judges settings sections (run plane.recorded sections deadline) := by
  refine .after (verifyIfSuspect_upholds (plane.recorded_besides PlaneCall.captured?_eq_none)) fun _ _ => ?_
  refine .after (requireEnvironment_upholds (plane.recorded_besides PlaneCall.captured?_eq_none)) fun id _ => ?_
  refine .after Upholds.runner fun r hr => .after (Upholds.quiet fun _ => rfl) fun now _ => ?_
  refine .after (Upholds.lift _) fun timeout _ => .after (Upholds.lift _) fun line _ => ?_
  refine .after (Upholds.note _ _) fun _ _ => ?_
  intro s hs
  refine .bind (execAborting_does_capture plane id _ hs) ?_ ?_
  · rintro capture added s₁ ⟨hs₁, ⟨_, ⟨⟩, _⟩ | ⟨_, ⟨⟩, hadded⟩⟩
    have hjudged : (used (r.settings.sanitized sections (.bytes capture.output)) >>= fun t =>
        Act.lift (classify r.settings.memoryLimit capture.exitCode t)) s₁ =
          (settings.judged sections capture, s₁) := by
      rw [hr, Settings.judged]
      rcases settings.sanitized sections (.bytes capture.output) with m | t <;> rfl
    refine .of_eq hjudged rfl ⟨hs₁, .inr ⟨capture, ?_, rfl⟩⟩
    rw [List.append_nil]
    exact hadded
  · rintro e added s₁ ⟨hs₁, ⟨f, _, hadded⟩ | ⟨_, ⟨⟩, _⟩⟩
    exact ⟨hs₁, .inl ⟨PlaneCall.captured_eq_nil hadded, e, rfl⟩⟩

end Runner

end Playpen
