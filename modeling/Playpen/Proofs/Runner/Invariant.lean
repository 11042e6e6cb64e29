import Playpen.Proofs.Act.Invariant
import Playpen.Proofs.Plane.Recorded

namespace Playpen.Runner

open Act (Does Maintains)

variable {ω τ α γ : Type} [Recording ω γ] {I : Runner τ → Prop} {Q : γ → Prop}

abbrev Calls (Q : γ → Prop) (x : Effect ω τ α) : Prop := ∀ env, Does x env fun _ added _ => ∀ c ∈ added, Q c

theorem calls_recorded {ω : Type} {Q : PlaneCall τ → Prop} {call : Except (Failure τ) α → PlaneCall τ}
    {x : Effect ω τ α} (h : ∀ reply, Q (call reply)) : Calls Q (Env.recorded call x) := by
  intro env
  refine Env.does_recorded.mono ?_
  rintro reply _ _ rfl
  exact List.forall_mem_singleton.mpr (h reply)

abbrev Upholds (I : Runner τ → Prop) (Q : γ → Prop) (x : RunnerAct ω τ α) (V : α → Prop) : Prop :=
  Maintains (fun s => I s.runner) Q x V

namespace Upholds

theorem effect {x : Effect ω τ α} (hx : Calls Q x) : Upholds I Q (Seat.effect x) fun _ => True := by
  intro s hs
  refine (Seat.does_effect (hx s.env)).mono ?_
  rintro r added s' ⟨hr, hadded⟩
  exact ⟨(congrArg I hr).mpr hs, fun _ _ => trivial, hadded⟩

theorem recorded {ω : Type} {Q : PlaneCall τ → Prop} {call : Except (Failure τ) α → PlaneCall τ} {x : Effect ω τ α}
    (h : ∀ reply, Q (call reply)) : Upholds I Q (Seat.effect (Env.recorded call x)) fun _ => True :=
  effect (calls_recorded h)

theorem quiet {x : Effect ω τ α} (hx : ∀ env, Recording.calls (x env).2.world = Recording.calls env.world) :
    Upholds I Q (Seat.effect x) fun _ => True :=
  effect fun env => .of_eq rfl (hx env) (List.forall_mem_nil _)

theorem lift (r : Except (Failure τ) α) : Upholds (ω := ω) I Q (Act.lift r) fun _ => True :=
  Maintains.lift r fun _ _ => trivial

theorem runner : Upholds (ω := ω) I Q (Act.read Seat.runner) I := by
  refine (Maintains.read _).mono ?_
  rintro r ⟨s, hs, rfl⟩
  exact hs

theorem update {f : Runner τ → Runner τ} (hf : ∀ r, I r → I (f r)) :
    Upholds (ω := ω) I Q (Seat.update f) fun _ => True :=
  .modify (fun _ => rfl) fun _ => hf _

theorem note (level : Level) (message : String → Except Misuse String) :
    Upholds (ω := ω) I Q (Seat.note level message) fun _ => True := by
  refine .bind (V := fun _ => True) (.silent (fun _ => rfl) (fun _ h => h) fun _ _ _ _ => trivial) ?_
  intro s _
  refine quiet fun env => ?_
  unfold Env.noteUsing
  rcases s.runner.key.display >>= message with _ | _ <;> rfl

theorem note_pure (level : Level) (message : String → Except Misuse String) (a : α) :
    Upholds (ω := ω) I Q (Seat.note level message >>= fun _ => pure a) fun _ => True :=
  .bind (note level message) fun _ _ => .pure trivial

variable [Seconds τ] [Clock ω τ]

theorem timed {x : Effect ω τ α} (block : String) (hx : Calls Q x) :
    Upholds I Q (Seat.effect (Env.timed block x)) fun _ => True :=
  effect fun env => Env.does_timed (hx env)

end Upholds

abbrev Yields (I : Runner τ → Prop) (Q : γ → Prop) (x : Effect ω τ (Runner τ)) : Prop :=
  ∀ env, Does x env fun out added _ => (∀ r, out = .ok r → I r) ∧ ∀ c ∈ added, Q c

variable {plane : ControlPlane ω τ}

theorem new_yields {settings : Settings τ} {key : SessionKey} (hconnect : Calls Q (plane.connect settings))
    (hnew : ∀ link, I { key, settings, link }) : Yields I Q (Runner.new plane settings key) := by
  intro env
  refine .bind (hconnect env) ?_ ?_
  · intro link added _ hadded
    refine .pure ⟨?_, ?_⟩
    · rintro _ ⟨⟩
      exact hnew link
    · rw [List.append_nil]
      exact hadded
  · intro e added _ hadded
    exact ⟨nofun, hadded⟩

variable [Seconds τ] [Clock ω τ]

theorem bringUp_yields (hstart : Upholds I Q (start plane) fun _ => True)
    (hclose : ∀ link, Calls Q (plane.close link)) {r : Runner τ} (hr : I r) :
    Yields I Q (bringUp plane r) := by
  intro env
  obtain ⟨added, hc, hs, _, hadded⟩ := hstart ⟨r, env⟩ hr
  rcases hrun : start plane ⟨r, env⟩ with ⟨e | _, seat⟩ <;> rw [hrun] at hc hs
  · have hclosing : bringUp plane r env = (plane.close r.link >>= fun _ => throw e) seat.env := by
      simp only [bringUp, hrun]
      rfl
    refine .later hclosing hc ?_
    refine .bind (hclose r.link seat.env) ?_ ?_
    · intro _ more _ hmore
      refine .throw ⟨nofun, ?_⟩
      rw [List.append_nil]
      exact List.forall_mem_append.mpr ⟨hadded, hmore⟩
    · intro f more _ hmore
      exact ⟨nofun, List.forall_mem_append.mpr ⟨hadded, hmore⟩⟩
  · refine ⟨added, ?_, ?_⟩ <;> simp only [bringUp, hrun]
    · exact hc
    · refine ⟨?_, hadded⟩
      rintro _ ⟨⟩
      exact hs

theorem open_yields {settings : Settings τ} {key : SessionKey} (hnew : Yields I Q (Runner.new plane settings key))
    (hstart : Upholds I Q (start plane) fun _ => True) (hclose : ∀ link, Calls Q (plane.close link)) :
    Yields I Q (Runner.open plane settings key) := by
  intro env
  refine .bind (hnew env) ?_ ?_
  · rintro r added env' ⟨hr, hadded⟩
    refine (bringUp_yields hstart hclose (hr r rfl) env').mono ?_
    rintro out more _ ⟨hq, hmore⟩
    exact ⟨hq, List.forall_mem_append.mpr ⟨hadded, hmore⟩⟩
  · rintro e added env' ⟨_, hadded⟩
    exact ⟨nofun, hadded⟩

end Playpen.Runner
