import Playpen.Execution.Engine
import Playpen.Proofs.Runner.Likeness

namespace Playpen

open Act (Agree InStep)

variable {ω τ α : Type} [Seconds τ] [Clock ω τ]

namespace Likeness

variable (L : Likeness ω τ)

structure Sites (fit : EnvironmentId → Prop) (s s' : Site ω τ) : Prop where
  runners : s.runners = s'.runners
  admits : ∀ r ∈ s.runners, L.admits r.settings
  fits : ∀ r ∈ s.runners, r.Fits fit
  registry : s.registry = s'.registry
  guards : s.guards = s'.guards
  env : L.Envs s.env s'.env

structure Answers (r r' : ExecutionResult) : Prop where
  success : r.success = r'.success
  milliseconds : r.milliseconds = r'.milliseconds
  memoryUsed : r.memoryUsed = r'.memoryUsed
  same : L.SameOutput → r = r'

def Ran (x y : Nat × RunOutcome × Int) : Prop := x.1 = y.1 ∧ L.Outcomes x.2.1 y.2.1 ∧ x.2.2 = y.2.2

def Attempts (a a' : Except (Failure τ) (Nat × RunOutcome × Int) × Option Nat) : Prop :=
  Agree L.Judged L.Ran a.1 a'.1 ∧ a.2 = a'.2

variable {L} {fit : EnvironmentId → Prop}

theorem siteEffect {F : Failure τ → Failure τ → Prop} {V : α → α → Prop} {x x' : Effect ω τ α}
    (hx : InStep L.Envs F V x x') : InStep (L.Sites fit) F V (Site.effect x) (Site.effect x') :=
  .within (fun _ _ hs => hs.env)
    (fun _ _ _ _ hs he => ⟨hs.runners, hs.admits, hs.fits, hs.registry, hs.guards, he⟩) hx

theorem siteNote {level : Level} {key : SessionKey} {m m' : String → String}
    (h : L.heard level = true → ∀ key, m key = m' key) :
    InStep (L.Sites fit) L.failure (fun _ _ => True) (Site.noteOf level key m) (Site.noteOf level key m') := by
  refine siteEffect (noteUsing ?_)
  cases key.display with
  | ok t => exact .ok fun hl => h hl t
  | error e => exact .error rfl

theorem withRunner (i : Nat) {F : Failure τ → Failure τ → Prop} (hF : ∀ f, F f f) {V : α → α → Prop}
    {x x' : RunnerAct ω τ α} (hx : InStep (L.Seats fit) F V x x') :
    InStep (L.Sites fit) F V (Site.withRunner i x) (Site.withRunner i x') := by
  intro s s' hs
  unfold Site.withRunner
  rw [← hs.runners]
  cases hr : s.runners[i]? with
  | none => exact ⟨.error (hF _), hs⟩
  | some r =>
    have hmem := List.mem_of_getElem? hr
    obtain ⟨hout, ⟨hsame, hadmits, hfits⟩, henv⟩ := hx ⟨r, s.env⟩ ⟨r, s'.env⟩
      ⟨⟨rfl, hs.admits r hmem, hs.fits r hmem⟩, hs.env⟩
    have all {P : Runner τ → Prop} (hP : ∀ q ∈ s.runners, P q) {r₁ : Runner τ} (h₁ : P r₁) :
        ∀ q ∈ s.runners.set i r₁, P q := by
      intro q hq
      rcases List.mem_or_eq_of_mem_set hq with hq | rfl
      · exact hP q hq
      · exact h₁
    exact ⟨hout, congrArg (s.runners.set i) hsame, all hs.admits hadmits, all hs.fits hfits, hs.registry,
      hs.guards, henv⟩

theorem registered (key : SessionKey) :
    InStep (L.Sites fit) L.failure Eq (Site.registered key) (Site.registered key) :=
  .read fun _ _ hs => congrArg key.lookUp hs.registry

theorem registry (f : List (SessionKey × Nat) → List (SessionKey × Nat)) :
    InStep (L.Sites fit) L.failure (fun _ _ => True) (Act.modify fun s => { s with registry := f s.registry })
      (Act.modify fun s => { s with registry := f s.registry }) :=
  .modify fun _ _ hs => ⟨hs.runners, hs.admits, hs.fits, congrArg f hs.registry, hs.guards, hs.env⟩

theorem guards (f : List (SessionKey × Nat) → List (SessionKey × Nat)) :
    InStep (L.Sites fit) L.failure (fun _ _ => True) (Act.modify fun s => { s with guards := f s.guards })
      (Act.modify fun s => { s with guards := f s.guards }) :=
  .modify fun _ _ hs => ⟨hs.runners, hs.admits, hs.fits, hs.registry, congrArg f hs.guards, hs.env⟩

theorem guarded (key : SessionKey) {V : α → α → Prop} {x x' : SiteAct ω τ α}
    (hx : InStep (L.Sites fit) L.failure V x x') :
    InStep (L.Sites fit) L.failure V (Site.guarded key x) (Site.guarded key x') :=
  .bind (guards _) fun _ _ _ => .ensure hx (guards _)

theorem adopt {r r' : Runner τ} (hr : L.Runners fit r r') :
    InStep (L.Sites fit) L.failure Eq (Site.adopt r) (Site.adopt r') := by
  intro s s' hs
  obtain ⟨rfl, hadmits, hfits⟩ := hr
  refine ⟨.ok (congrArg List.length hs.runners), congrArg (· ++ [r]) hs.runners, ?_, ?_, hs.registry, hs.guards,
    hs.env⟩
  · exact List.forall_mem_append.mpr ⟨hs.admits, List.forall_mem_singleton.mpr hadmits⟩
  · exact List.forall_mem_append.mpr ⟨hs.fits, List.forall_mem_singleton.mpr hfits⟩

end Likeness

open Likeness

variable {L : Likeness ω τ} {fit : EnvironmentId → Prop} {plane plane' : ControlPlane ω τ}
    {factory factory' : RunnerFactory ω τ}

section

variable (hf : ∀ key, InStep L.Envs L.failure (L.Runners fit) (factory key) (factory' key))

include hf

theorem Pool.build_alike (key : SessionKey) :
    InStep (L.Sites fit) L.failure Eq (build factory key) (build factory' key) := by
  refine .bind (registered key) ?_
  rintro found _ rfl
  cases found with
  | some i => exact .pure rfl
  | none =>
    refine .bind (siteNote fun _ _ => rfl) fun _ _ _ => .bind (siteEffect (hf key)) fun r r' hr => ?_
    refine .bind (adopt hr) ?_
    rintro i _ rfl
    exact .bind (registry (· ++ [(key, i)])) fun _ _ _ => .pure rfl

theorem Engine.acquire_alike (key : SessionKey) :
    InStep (L.Sites fit) L.failure Eq (acquire factory key) (acquire factory' key) := by
  refine .ite .rfl (fun _ => .bind (registered key) ?_) fun _ => .throw (L.same _)
  rintro found _ rfl
  cases found with
  | some i => exact .pure rfl
  | none => exact guarded key (Pool.build_alike hf key)

end

variable (h : plane.AlikeOn L fit plane')

theorem Engine.elapsed_alike (start : τ) :
    InStep (L.Sites fit) L.failure Eq (elapsed start : SiteAct ω τ Int) (elapsed start) := by
  refine .bind (siteEffect (sinceNow start)) ?_
  rintro d _ rfl
  refine .bind (lifted _) ?_
  rintro ms _ rfl
  exact .pure rfl

theorem Engine.failed_alike {error error' : String} (he : L.SameOutput → error = error') (start : τ) :
    InStep (L.Sites fit) L.failure L.Answers (failed error start) (failed error' start) := by
  refine .bind (elapsed_alike start) ?_
  rintro ms _ rfl
  exact .pure ⟨rfl, rfl, rfl, fun hsame => by rw [he hsame]⟩

theorem Engine.isSuspect_alike (runner : Option Nat) :
    InStep (L.Sites fit) L.failure Eq (isSuspect runner) (isSuspect runner) := by
  cases runner with
  | none => exact .pure rfl
  | some i => exact .read fun _ _ hs => by rw [hs.runners]

include h

namespace Pool

theorem retire_alike (key : SessionKey) :
    InStep (L.Sites fit) L.failure (fun _ _ => True) (retire plane key) (retire plane' key) := by
  refine .bind (registered key) ?_
  rintro found _ rfl
  cases found with
  | none => exact .pure trivial
  | some i =>
    refine .bind (registry _) fun _ _ _ => ?_
    exact .bind (withRunner i L.same (Runner.close_alike h)) fun _ _ _ => siteNote fun _ _ => rfl

theorem release_alike (key : SessionKey) :
    InStep (L.Sites fit) L.failure (fun _ _ => True) (release plane key) (release plane' key) := by
  refine .bind (registered key) ?_
  rintro found _ rfl
  cases found with
  | none => exact .pure trivial
  | some i => exact guarded key (retire_alike h key)

def Sums (L : Likeness ω τ) : Nat × Option (Failure τ) → Nat × Option (Failure τ) → Prop :=
  fun sum sum' => sum.1 = sum'.1 ∧ Option.Rel L.failure sum.2 sum'.2

theorem releaseAll_alike (keys : List SessionKey) (failures : Nat) {last last' : Option (Failure τ)}
    (hlast : Option.Rel L.failure last last') :
    InStep (L.Sites fit) L.failure (Sums L) (releaseAll plane keys failures last)
      (releaseAll plane' keys failures last') := by
  induction keys generalizing failures last last' with
  | nil => exact .pure ⟨rfl, hlast⟩
  | cons key keys ih =>
    refine .bind (release_alike h key).outcome fun r r' hr => ?_
    cases hr with
    | ok _ => exact ih failures hlast
    | error he =>
      exact .bind (siteNote fun hl key => by rw [L.message he hl]) fun _ _ _ => ih (failures + 1) (.some he)

theorem shutdown_alike :
    InStep (L.Sites fit) L.failure (fun _ _ => True) (shutdown plane) (shutdown plane') := by
  refine .bind (V := Eq) (.read fun _ _ hs => by rw [hs.registry]) ?_
  rintro keys _ rfl
  refine .bind (releaseAll_alike h keys 0 .none) ?_
  rintro ⟨failures, last⟩ ⟨_, last'⟩ ⟨rfl, hlast⟩
  cases hlast with
  | none => exact .pure trivial
  | some he => exact .bind (siteEffect (note fun _ => rfl)) fun _ _ _ => .throw he

end Pool

namespace Engine

theorem recycle_alike (key : SessionKey) :
    InStep (L.Sites fit) L.failure (fun _ _ => True) (recycle plane key) (recycle plane' key) := by
  refine .rescue (Pool.release_alike h key) fun f f' hf => .ite (by rw [L.isA hf]) (fun _ => ?_) fun _ => .throw hf
  exact siteNote fun hl key => by rw [L.message hf hl]

theorem attempt_alike (hf : ∀ key, InStep L.Envs L.failure (L.Runners fit) (factory key) (factory' key))
    (s : Submission τ) (hreads : L.Reads s.sections) (key : SessionKey) (start deadline : τ) :
    InStep (L.Sites fit) L.failure L.Attempts (attempt plane factory s key start deadline)
      (attempt plane' factory' s key start deadline) := by
  refine .bind (acquire_alike hf key).outcome fun r r' hr => ?_
  cases hr with
  | error he => exact .pure ⟨.error (.given he), rfl⟩
  | @ok i _ hi =>
    cases hi
    refine .bind (InStep.outcome (F := L.Judged) (V := L.Ran) ?_) fun r r' hr => .pure ⟨hr, rfl⟩
    refine .bind (judged (withRunner i L.same (Runner.inject_alike h _))) fun _ _ _ => ?_
    refine .bind (withRunner i (fun f => .given (L.same f)) (Runner.run_alike h hreads _)) fun o o' ho => ?_
    refine .bind (judged (elapsed_alike start)) ?_
    rintro ms _ rfl
    exact .pure ⟨rfl, ho, rfl⟩

theorem resolve_alike (e : Engine τ) (key : SessionKey) (seconds start : τ) (runner : Option Nat)
    {f f' : Failure τ} (hf : L.Judged f f') :
    InStep (L.Sites fit) L.failure L.Answers (e.resolve plane key seconds start runner f)
      (e.resolve plane' key seconds start runner f') := by
  have told {level : Level} {m m' : String → String} {error error' : String}
      (hm : L.heard level = true → ∀ key, m key = m' key) (he : L.SameOutput → error = error') :
      InStep (L.Sites fit) L.failure L.Answers (do
        Site.noteOf level key m
        failed error start) (do
        Site.noteOf level key m'
        failed error' start) :=
    .bind (siteNote hm) fun _ _ _ => failed_alike he start
  refine .ite (by rw [hf.isA]) (fun _ => ?_) fun _ => ?_
  · refine .bind (siteNote fun _ _ => rfl) fun _ _ _ => .bind (isSuspect_alike runner) ?_
    rintro suspect _ rfl
    refine .ite .rfl (fun _ => ?_) fun _ => failed_alike (fun _ => rfl) start
    exact .bind (recycle_alike h key) fun _ _ _ => failed_alike (fun _ => rfl) start
  -- Only what is logged at the level of errors quotes the control plane.
  cases hf with
  | process code ho | memoryLimit code limit ho => exact told (fun _ _ => rfl) fun hsame => by rw [ho hsame]
  | given hf =>
    cases L.reworded hf with
    | process | memoryLimit => exact told (fun _ _ => rfl) fun _ => rfl
    | workspace | controlPlane | configuration => exact told (fun hl key => by rw [L.message hf hl]) fun _ => rfl
    | playground | sandbox | timeout | other => exact told (fun _ _ => rfl) fun _ => rfl

theorem execute_alike (hf : ∀ key, InStep L.Envs L.failure (L.Runners fit) (factory key) (factory' key))
    (e : Engine τ) (s : Submission τ) (hreads : L.Reads s.sections) :
    InStep (L.Sites fit) L.failure L.Answers (e.execute plane factory s) (e.execute plane' factory' s) := by
  refine .bind (siteEffect now) ?_
  rintro start _ rfl
  refine .bind (attempt_alike h hf s hreads _ start _) ?_
  rintro ⟨r, runner⟩ ⟨r', _⟩ ⟨hr, rfl⟩
  cases hr with
  | error hf => exact resolve_alike h e _ _ start runner hf
  | @ok x y hxy =>
    obtain ⟨i, outcome, ms⟩ := x
    obtain ⟨_, outcome', _⟩ := y
    obtain ⟨rfl, ho : L.Outcomes outcome outcome', rfl⟩ := hxy
    refine .bind (withRunner i L.same (Runner.memoryUsage_alike h)) ?_
    rintro memory _ rfl
    refine .bind (siteNote fun _ _ => rfl) fun _ _ _ => .pure ⟨rfl, rfl, rfl, fun hsame => ?_⟩
    rw [ho hsame]

variable (hf : ∀ key, InStep L.Envs L.failure (L.Runners fit) (factory key) (factory' key))
  (hsame : L.SameOutput)
include hf hsame

theorem toolchainVersion_alike (e : Engine τ) :
    InStep (L.Sites fit) L.failure Eq (e.toolchainVersion plane factory) (e.toolchainVersion plane' factory') := by
  refine .bind (acquire_alike hf e.versionKey) ?_
  rintro i _ rfl
  exact withRunner i L.same (Runner.toolchainVersion_alike h hsame none)

theorem validateToolchain_alike (e : Engine τ) :
    InStep (L.Sites fit) L.failure (fun _ _ => True) (e.validateToolchain plane factory)
      (e.validateToolchain plane' factory') := by
  refine .bind (acquire_alike hf e.versionKey) ?_
  rintro i _ rfl
  exact withRunner i L.same (Runner.validateToolchain_alike h hsame)

end Engine

end Playpen
