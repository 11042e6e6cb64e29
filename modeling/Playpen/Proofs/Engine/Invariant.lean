import Playpen.Proofs.Engine.History
import Playpen.Proofs.Runner.Accord

namespace Playpen

open Act (Does Maintains)

variable {ω τ α γ : Type} [Recording ω γ] {I : Runner τ → Prop} {Q : γ → Prop}

namespace Site

theorem does_onRunner (i : Nat) {x : RunnerAct ω τ α} {P : Except (Failure τ) α → List γ → Prop}
    (hx : ∀ seat, I seat.runner → Does x seat fun out added seat' => I seat'.runner ∧ P out added)
    (hnone : P (.error (.other .lookup none)) []) {s : Site ω τ} (hs : ∀ r ∈ s.runners, I r) :
    Does (Site.withRunner i x) s fun out added s' => (∀ r ∈ s'.runners, I r) ∧ P out added := by
  unfold Site.withRunner
  cases hr : s.runners[i]? with
  | none =>
    refine ⟨[], ?_, ?_⟩ <;> simp only [hr]
    · exact (List.append_nil _).symm
    · exact ⟨hs, hnone⟩
  | some r =>
    obtain ⟨added, hc, hseat, hp⟩ := hx ⟨r, s.env⟩ (hs r (List.mem_of_getElem? hr))
    refine ⟨added, ?_, ?_⟩ <;> simp only [hr]
    · exact hc
    refine ⟨fun q hq => ?_, hp⟩
    rcases List.mem_or_eq_of_mem_set hq with hq | rfl
    · exact hs q hq
    · exact hseat

abbrev Upholds (I : Runner τ → Prop) (Q : γ → Prop) (x : SiteAct ω τ α) (V : α → Prop) : Prop :=
  Maintains (fun s => ∀ r ∈ s.runners, I r) Q x V

namespace Upholds

theorem quiet {x : Effect ω τ α} (hx : ∀ env, Recording.calls (x env).2.world = Recording.calls env.world) :
    Upholds I Q (Site.effect x) fun _ => True :=
  .silent (fun s => hx s.env) (fun _ h => h) fun _ _ _ _ => trivial

theorem noteOf (level : Level) (key : SessionKey) (message : String → String) :
    Upholds (ω := ω) I Q (Site.noteOf level key message) fun _ => True := by
  refine quiet fun env => ?_
  unfold Env.noteUsing
  rcases key.display.map message with _ | _ <;> rfl

theorem tables {f : Site ω τ → Site ω τ} (he : ∀ s, (f s).env = s.env)
    (hr : ∀ s, (f s).runners = s.runners) : Upholds I Q (Act.modify f) fun _ => True := by
  refine .modify (fun s => congrArg (Recording.calls ·.world) (he s)) fun s hs => ?_
  rw [hr s]
  exact hs

theorem read (f : Site ω τ → α) : Upholds I Q (Act.read f) fun _ => True :=
  (Maintains.read f).any

theorem withRunner (i : Nat) {x : RunnerAct ω τ α} {V : α → Prop}
    (hx : Runner.Upholds I Q x V) : Upholds I Q (Site.withRunner i x) V :=
  fun _ hs => does_onRunner i hx ⟨nofun, List.forall_mem_nil _⟩ hs

theorem adopt {r : Runner τ} (hr : I r) : Upholds (ω := ω) I Q (Site.adopt r) fun _ => True := by
  refine .silent (fun _ => rfl) (fun s hs => ?_) fun _ _ _ _ => trivial
  exact List.forall_mem_append.mpr ⟨hs, List.forall_mem_singleton.mpr hr⟩

theorem yielded {x : Effect ω τ (Runner τ)} (hx : Runner.Yields I Q x) :
    Upholds I Q (Site.effect x) I := by
  intro s hs
  refine .within rfl (fun _ => rfl) ((hx s.env).mono ?_)
  rintro out added _ ⟨hr, hadded⟩
  exact ⟨hs, hr, hadded⟩

theorem guarded (key : SessionKey) {x : SiteAct ω τ α} {V : α → Prop}
    (hx : Upholds I Q x V) : Upholds I Q (Site.guarded key x) V :=
  .bind (tables (fun _ => rfl) fun _ => rfl) fun _ _ => .ensure hx (tables (fun _ => rfl) fun _ => rfl)

end Upholds

structure Kept (I : Runner τ → Prop) (Q : γ → Prop) (s : Site ω τ) : Prop where
  runners : ∀ r ∈ s.runners, I r
  calls : ∀ c ∈ Recording.calls s, Q c

theorem Kept.after {s : Site ω τ} (hs : s.Kept I Q) {x : SiteAct ω τ α} {V : α → Prop}
    (hx : Upholds I Q x V) : (x s).2.Kept I Q := by
  obtain ⟨added, hc, hr, _, hadded⟩ := hx s hs.runners
  refine ⟨hr, ?_⟩
  rw [hc]
  exact List.forall_mem_append.mpr ⟨hs.calls, hadded⟩

end Site

open Site (Upholds)

variable {plane : ControlPlane ω τ}

section Closing

variable (hclose : Runner.Upholds I Q (Runner.close plane) fun _ => True)
include hclose

namespace Pool

theorem retire_upholds (key : SessionKey) : Upholds I Q (retire plane key) fun _ => True := by
  refine .bind (Upholds.read _) fun found _ => ?_
  cases found with
  | none => exact .pure trivial
  | some i =>
    refine .bind (Upholds.tables (fun _ => rfl) fun _ => rfl) fun _ _ => ?_
    exact .bind (Upholds.withRunner i hclose) fun _ _ => Upholds.noteOf _ _ _

theorem release_upholds (key : SessionKey) : Upholds I Q (release plane key) fun _ => True := by
  refine .bind (Upholds.read _) fun found _ => ?_
  cases found with
  | none => exact .pure trivial
  | some _ => exact Upholds.guarded key (retire_upholds hclose key)

variable [Seconds τ]

theorem releaseAll_upholds (keys : List SessionKey) (failures : Nat) (last : Option (Failure τ)) :
    Upholds I Q (releaseAll plane keys failures last) fun _ => True := by
  induction keys generalizing failures last with
  | nil => exact .pure trivial
  | cons key keys ih =>
    refine .bind (release_upholds hclose key).outcome.any fun reply _ => ?_
    cases reply with
    | ok _ => exact ih failures last
    | error e => exact .bind (Upholds.noteOf _ _ _) fun _ _ => ih _ _

theorem shutdown_upholds : Upholds I Q (shutdown plane) fun _ => True := by
  refine .bind (Upholds.read _) fun keys _ => .bind (releaseAll_upholds hclose keys 0 none) fun sum _ => ?_
  match sum with
  | (_, none) => exact .pure trivial
  | (failures, some e) => exact .bind (Upholds.quiet fun _ => rfl) fun _ _ => .throw e

end Pool

variable [Seconds τ]

theorem Engine.recycle_upholds (key : SessionKey) :
    Upholds I Q (recycle plane key) fun _ => True :=
  .rescue (Pool.release_upholds hclose key) fun e =>
    .ite (fun _ => Upholds.noteOf _ _ _) fun _ => .throw e

end Closing

section Opening

variable {factory : RunnerFactory ω τ} (hopen : ∀ key, Runner.Yields I Q (factory key))
include hopen

theorem Pool.build_upholds (key : SessionKey) : Upholds I Q (build factory key) fun _ => True := by
  refine .bind (Upholds.read _) fun found _ => ?_
  cases found with
  | some i => exact .pure trivial
  | none =>
    refine .bind (Upholds.noteOf _ _ _) fun _ _ => .bind (Upholds.yielded (hopen key)) fun r hr => ?_
    refine .bind (Upholds.adopt hr) fun i _ => ?_
    exact .bind (Upholds.tables (fun _ => rfl) fun _ => rfl) fun _ _ => .pure trivial

theorem Engine.acquire_upholds (key : SessionKey) : Upholds I Q (acquire factory key) fun _ => True := by
  refine .ite (fun _ => .bind (Upholds.read _) fun found _ => ?_) fun _ => .throw _
  cases found with
  | some i => exact .pure trivial
  | none => exact Upholds.guarded key (Pool.build_upholds hopen key)

end Opening

namespace Engine

theorem isSuspect_upholds (runner : Option Nat) :
    Upholds (ω := ω) I Q (isSuspect runner) fun _ => True := by
  cases runner with
  | none => exact .pure trivial
  | some i => exact Upholds.read _

variable [Seconds τ] [Clock ω τ]

theorem elapsed_upholds (start : τ) : Upholds (ω := ω) I Q (elapsed start) fun _ => True := by
  refine .bind (Upholds.quiet fun _ => rfl) fun d _ => ?_
  exact .bind (V := fun _ => True) (.lift _ fun _ _ => trivial) fun ms _ => .pure trivial

theorem failed_upholds (error : String) (start : τ) :
    Upholds (ω := ω) I Q (failed error start) fun _ => True :=
  .bind (elapsed_upholds start) fun _ _ => .pure trivial

theorem attempt_upholds {factory : RunnerFactory ω τ} {s : Submission τ} {deadline : τ}
    (hopen : ∀ key, Runner.Yields I Q (factory key))
    (hinject : Runner.Upholds I Q (Runner.inject plane s.source) fun _ => True)
    (hrun : Runner.Upholds I Q (Runner.run plane s.sections (some deadline)) fun _ => True) (key : SessionKey)
    (start : τ) : Upholds I Q (attempt plane factory s key start deadline) fun _ => True := by
  refine .bind (acquire_upholds hopen key).outcome.any fun reply _ => ?_
  cases reply with
  | error e => exact .pure trivial
  | ok i =>
    refine .bind (Maintains.outcome (V := fun _ => True) ?_).any fun _ _ => .pure trivial
    refine .bind (Upholds.withRunner i hinject) fun _ _ => .bind (Upholds.withRunner i hrun) fun _ _ => ?_
    exact .bind (elapsed_upholds start) fun _ _ => .pure trivial

theorem resolve_upholds (hclose : Runner.Upholds I Q (Runner.close plane) fun _ => True)
    (e : Engine τ) (key : SessionKey) (seconds start : τ) (runner : Option Nat) (failure : Failure τ) :
    Upholds I Q (e.resolve plane key seconds start runner failure) fun _ => True := by
  refine .ite (fun _ => .bind (Upholds.noteOf _ _ _) fun _ _ => ?_) fun _ => ?_
  · refine .bind (isSuspect_upholds runner) fun suspect _ => .ite (fun _ => ?_) fun _ => failed_upholds _ _
    exact .bind (recycle_upholds hclose key) fun _ _ => failed_upholds _ _
  · cases failure <;> exact .bind (Upholds.noteOf _ _ _) fun _ _ => failed_upholds _ _

theorem execute_upholds {factory : RunnerFactory ω τ} (e : Engine τ) (sub : Submission τ) {s : Site ω τ}
    (hs : ∀ r ∈ s.runners, I r) (hopen : ∀ key, Runner.Yields I Q (factory key))
    (hinject : Runner.Upholds I Q (Runner.inject plane sub.source) fun _ => True)
    (hrun : Runner.Upholds I Q (Runner.run plane sub.sections
      (some (Seconds.add (Clock.now s.env.world) (e.seconds sub.timeout)))) fun _ => True)
    (hmemory : Runner.Upholds I Q (Runner.memoryUsage plane) fun _ => True)
    (hclose : Runner.Upholds I Q (Runner.close plane) fun _ => True) :
    Does (e.execute plane factory sub) s fun _ added s' => (∀ r ∈ s'.runners, I r) ∧ ∀ c ∈ added, Q c := by
  have hnow : (Site.effect Env.now : SiteAct ω τ τ) s = (.ok (Clock.now s.env.world), s) := rfl
  refine .step hnow rfl ?_
  refine .bind (attempt_upholds hopen hinject hrun _ _ s hs) ?_ ?_
  · rintro attempted added s₁ ⟨hs₁, _, hadded⟩
    have goes {x : SiteAct ω τ ExecutionResult} (hx : Upholds I Q x fun _ => True) :
        Does x s₁ fun _ more s₂ => (∀ r ∈ s₂.runners, I r) ∧ ∀ c ∈ added ++ more, Q c := by
      refine (hx s₁ hs₁).mono ?_
      rintro _ more s₂ ⟨hs₂, _, hmore⟩
      exact ⟨hs₂, List.forall_mem_append.mpr ⟨hadded, hmore⟩⟩
    match attempted with
    | (.error failure, runner) => exact goes (resolve_upholds hclose e _ _ _ runner failure)
    | (.ok (i, _), _) =>
      apply goes
      refine .bind (Upholds.withRunner i hmemory) fun _ _ => ?_
      exact .bind (Upholds.noteOf _ _ _) fun _ _ => .pure trivial
  · rintro f added s₁ ⟨hs₁, _, hadded⟩
    exact ⟨hs₁, hadded⟩

end Engine

variable [Seconds τ] [Clock ω τ]

structure Runner.Conforms (plane : ControlPlane ω τ) (settings : Settings τ) (I : Runner τ → Prop)
    (Q : PlaneCall τ → Prop) : Prop where
  opened (key : SessionKey) : Yields I Q (Runner.open plane.recorded settings key)
  inject (source : Raw) : Upholds I Q (Runner.inject plane.recorded source) fun _ => True
  run (sections : Bool) (deadline : Option τ) :
    Upholds I Q (Runner.run plane.recorded sections deadline) fun _ => True
  toolchainVersion : Upholds I Q (Runner.toolchainVersion plane.recorded none) fun _ => True
  memoryUsage : Upholds I Q (Runner.memoryUsage plane.recorded) fun _ => True
  close : Upholds I Q (Runner.close plane.recorded) fun _ => True

namespace Runner.Conforms

variable {settings : Settings τ} {Q : PlaneCall τ → Prop}

theorem of_besides (h : plane.recorded.Besides settings I Q) (hnew : ∀ key link, I { key, settings, link })
    (hexec : ∀ l id line timeout, settings.Allots timeout →
      Calls Q (plane.recorded.exec l id ⟨line, settings.user, settings.workingDir, timeout⟩)) :
    Conforms plane settings I Q where
  opened key := open_upholds h key (hnew key)
  inject := inject_upholds h
  run := run_upholds h hexec
  toolchainVersion := toolchainVersion_upholds h fun l id line t ht => hexec l id line t (.inl (ht.resolve_right nofun))
  memoryUsage := (memoryUsage_upholds h).any
  close := close_upholds h

variable (h : Conforms plane settings I Q)
include h

theorem validateToolchain : Upholds I Q (Runner.validateToolchain plane.recorded) fun _ => True :=
  .bind h.toolchainVersion fun _ _ => .ite (fun _ => .throw _) fun _ => .pure trivial

theorem execute (e : Engine τ) (sub : Submission τ) {s : Site (Recorded ω τ) τ} (hs : s.Kept I Q) :
    (e.execute plane.recorded (Runner.open plane.recorded settings) sub s).2.Kept I Q := by
  obtain ⟨added, hc, hr, hadded⟩ :=
    Engine.execute_upholds e sub hs.runners h.opened (h.inject _) (h.run _ _) h.memoryUsage h.close
  refine ⟨hr, ?_⟩
  rw [hc]
  exact List.forall_mem_append.mpr ⟨hs.calls, hadded⟩

theorem perform (e : Engine τ) {s : Site (Recorded ω τ) τ} (hs : s.Kept I Q) (op : Operation ω τ) :
    (op.perform plane settings e s).Kept I Q := by
  cases op with
  | execute sub => exact h.execute e sub hs
  | toolchainVersion =>
    exact hs.after (.bind (Engine.acquire_upholds h.opened _) fun i _ =>
      Site.Upholds.withRunner i h.toolchainVersion)
  | validateToolchain =>
    exact hs.after (.bind (Engine.acquire_upholds h.opened _) fun i _ =>
      Site.Upholds.withRunner i h.validateToolchain)
  | acquire key => exact hs.after (Engine.acquire_upholds h.opened key)
  | get key => exact hs
  | release key => exact hs.after (Pool.release_upholds h.close key)
  | shutdown => exact hs.after (Pool.shutdown_upholds h.close)
  | outside change => exact ⟨hs.runners, hs.calls⟩

theorem history (e : Engine τ) (env : Env ω τ) (ops : List (Operation ω τ)) :
    (history plane settings e env ops).Kept I Q := by
  induction ops using List.reverseRecOn with
  | nil => exact ⟨List.forall_mem_nil _, List.forall_mem_nil _⟩
  | append_singleton ops op ih =>
    rw [Playpen.history, List.foldl_append]
    exact h.perform e ih op

end Runner.Conforms

end Playpen
