import Playpen.Proofs.Act.Invariant
import Playpen.Proofs.Engine.History

namespace Playpen

open Act (Preserves)

variable {ω τ α : Type}

namespace Site

abbrev Grips (guards : List (SessionKey × Nat)) (s : Site ω τ) : Prop := s.guards = guards

variable {guards : List (SessionKey × Nat)}

theorem effect_grips (x : Effect ω τ α) : Preserves (Grips guards) (Site.effect x) := fun _ h => h

theorem adopt_grips (r : Runner τ) : Preserves (Grips guards) (Site.adopt r : SiteAct ω τ Nat) := fun _ h => h

theorem withRunner_grips (i : Nat) (x : RunnerAct ω τ α) : Preserves (Grips guards) (Site.withRunner i x) := by
  intro s hs
  unfold Site.withRunner
  cases s.runners[i]? <;> exact hs

theorem guarded_grips {key : SessionKey} (hk : key.isKey = true) {x : SiteAct ω τ α}
    (hx : Preserves (Grips [(key, 1)]) x) : Preserves (Grips []) (Site.guarded key x) := by
  intro s hs
  have hin : (x { s with guards := Guards.enter key s.guards }).2.guards = [(key, 1)] := by
    apply hx
    show Guards.enter key s.guards = [(key, 1)]
    rw [hs]
    rfl
  show Guards.leave key (x { s with guards := Guards.enter key s.guards }).2.guards = []
  rw [hin]
  simp only [Guards.leave, Value.sameKey_self hk, ↓reduceIte, Nat.le_refl]

end Site

open Site (Grips effect_grips adopt_grips withRunner_grips guarded_grips)

namespace Pool

variable {plane : ControlPlane ω τ} {factory : RunnerFactory ω τ} {guards : List (SessionKey × Nat)}

theorem build_grips (key : SessionKey) : Preserves (Grips guards) (build factory key) := by
  refine .bind (.read _) fun found => ?_
  cases found with
  | some i => exact .pure i
  | none =>
    refine .bind (effect_grips _) fun _ => .bind (effect_grips _) fun r => ?_
    exact .bind (adopt_grips r) fun i => .bind (fun _ h => h) fun _ => .pure i

theorem retire_grips (key : SessionKey) : Preserves (Grips guards) (retire plane key) := by
  refine .bind (.read _) fun found => ?_
  cases found with
  | none => exact .pure ()
  | some i => exact .bind (fun _ h => h) fun _ => .bind (withRunner_grips i _) fun _ => effect_grips _

theorem acquire_grips {key : SessionKey} (hk : key.isKey = true) :
    Preserves (Grips []) (acquire factory key) := by
  refine .bind (.read _) fun found => ?_
  cases found with
  | some i => exact .pure i
  | none => exact guarded_grips hk (build_grips key)

theorem release_grips (key : SessionKey) : Preserves (Grips []) (release plane key) := by
  intro s hs
  have hfind : Site.registered key s = (.ok (key.lookUp s.registry), s) := rfl
  unfold release
  rw [Act.bind_ok hfind]
  cases hl : key.lookUp s.registry with
  | none => exact hs
  | some i =>
    obtain ⟨k, _, hk⟩ := Value.mem_of_lookUp hl
    have hkey : key.isKey = true := (Value.sameKey_iff.mp (Value.sameKey_comm.trans hk)).1
    exact guarded_grips hkey (retire_grips key) s hs

variable [Seconds τ]

theorem releaseAll_grips (keys : List SessionKey) (failures : Nat) (last : Option (Failure τ)) :
    Preserves (Grips []) (releaseAll plane keys failures last) := by
  induction keys generalizing failures last with
  | nil => exact .pure _
  | cons key keys ih =>
    refine .bind (.outcome (release_grips key)) fun reply => ?_
    cases reply with
    | ok _ => exact ih failures last
    | error e => exact .bind (effect_grips _) fun _ => ih _ _

theorem shutdown_grips : Preserves (Grips []) (shutdown plane) := by
  refine .bind (.read _) fun keys => .bind (releaseAll_grips keys 0 none) fun sum => ?_
  match sum with
  | (_, none) => exact .pure ()
  | (failures, some e) => exact .bind (effect_grips _) fun _ => .throw e

end Pool

namespace Engine

variable {plane : ControlPlane ω τ} {factory : RunnerFactory ω τ}

theorem acquire_grips (key : SessionKey) : Preserves (Grips []) (acquire factory key) :=
  .ite Pool.acquire_grips fun _ => .throw _

variable [Seconds τ]

theorem recycle_grips (key : SessionKey) : Preserves (Grips []) (recycle plane key) :=
  .rescue (Pool.release_grips key) fun e => .ite (fun _ => effect_grips _) fun _ => .throw e

variable [Clock ω τ]

theorem elapsed_grips (start : τ) : Preserves (Grips []) (elapsed start : SiteAct ω τ Int) :=
  .bind (effect_grips _) fun _ => .bind (.lift _) fun _ => .pure _

theorem failed_grips (error : String) (start : τ) :
    Preserves (Grips []) (failed error start : SiteAct ω τ ExecutionResult) :=
  .bind (elapsed_grips start) fun _ => .pure _

theorem resolve_grips (e : Engine τ) (key : SessionKey) (seconds start : τ) (runner : Option Nat)
    (failure : Failure τ) : Preserves (Grips []) (e.resolve plane key seconds start runner failure) := by
  refine .ite (fun _ => .bind (effect_grips _) fun _ => ?_) fun _ => ?_
  · have hsuspect : Preserves (Grips []) (isSuspect runner : SiteAct ω τ Bool) := by
      cases runner with
      | none => exact .pure false
      | some i => exact .read _
    refine .bind hsuspect fun _ => .ite (fun _ => ?_) fun _ => failed_grips _ _
    exact .bind (recycle_grips key) fun _ => failed_grips _ _
  · cases failure <;> exact .bind (effect_grips _) fun _ => failed_grips _ _

theorem attempt_grips (s : Submission τ) (key : SessionKey) (start deadline : τ) :
    Preserves (Grips []) (attempt plane factory s key start deadline) := by
  refine .bind (.outcome (acquire_grips key)) fun reply => ?_
  cases reply with
  | error e => exact .pure _
  | ok i =>
    refine .bind (.outcome ?_) fun _ => .pure _
    refine .bind (withRunner_grips i _) fun _ => .bind (withRunner_grips i _) fun _ => ?_
    exact .bind (elapsed_grips start) fun _ => .pure _

theorem execute_grips (e : Engine τ) (s : Submission τ) :
    Preserves (Grips []) (e.execute plane factory s) := by
  refine .bind (effect_grips _) fun start => .bind (attempt_grips s _ start _) fun attempted => ?_
  match attempted with
  | (.error failure, runner) => exact resolve_grips e _ _ start runner failure
  | (.ok (i, _), _) =>
    exact .bind (withRunner_grips i _) fun _ => .bind (effect_grips _) fun _ => .pure _

end Engine

variable [Seconds τ] [Clock ω τ] {plane : ControlPlane ω τ} {settings : Settings τ}

theorem Operation.perform_grips (e : Engine τ) (op : Operation ω τ) {s : Site (Recorded ω τ) τ}
    (hs : s.guards = []) : (op.perform plane settings e s).guards = [] := by
  cases op with
  | execute sub => exact Engine.execute_grips e sub s hs
  | toolchainVersion =>
    exact Preserves.bind (Engine.acquire_grips e.versionKey) (fun i => withRunner_grips i _) s hs
  | validateToolchain =>
    exact Preserves.bind (Engine.acquire_grips e.versionKey) (fun i => withRunner_grips i _) s hs
  | acquire key => exact Engine.acquire_grips key s hs
  | release key => exact Pool.release_grips key s hs
  | shutdown => exact Pool.shutdown_grips s hs
  | get key => exact hs
  | outside change => exact hs

structure Site.Settled (s : Site ω τ) : Prop where
  keyed : Value.Keyed s.registry
  numbers : (s.registry.map (·.2)).Nodup
  shown {k : SessionKey} {i : Nat} : (k, i) ∈ s.registry → ∃ t, k.display = .ok t
  built {k : SessionKey} {i : Nat} : (k, i) ∈ s.registry → i < s.runners.length
  unguarded : s.guards = []

theorem history_settled (hp : plane.Legible settings) (e : Engine τ) (env : Env ω τ)
    (ops : List (Operation ω τ)) : (history plane settings e env ops).Settled := by
  have hsound := history_sound (e := e) hp env ops
  refine ⟨hsound.keyed, hsound.numbers, hsound.shown, ?_, ?_⟩
  · intro k i hm
    obtain ⟨r, hr, _⟩ := hsound.runner hm
    exact (List.getElem?_eq_some_iff.mp hr).1
  · unfold history
    induction ops using List.reverseRecOn with
    | nil => rfl
    | append_singleton ops op ih =>
      rw [List.foldl_append]
      exact Operation.perform_grips e op (ih (history_sound hp env ops))

end Playpen
