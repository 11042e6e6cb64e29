import Mathlib.Data.List.Induction
import Playpen.Proofs.Engine.Behaviour

namespace Playpen

open Act (Does)

variable {ω τ : Type}

inductive Operation (ω τ : Type)
  | execute (s : Submission τ)
  | toolchainVersion
  | validateToolchain
  | acquire (key : SessionKey)
  | get (key : SessionKey)
  | release (key : SessionKey)
  | shutdown
  | outside (change : ω → ω)

section

variable [Seconds τ] [Clock ω τ] (plane : ControlPlane ω τ) (settings : Settings τ) (e : Engine τ)

def Operation.perform (op : Operation ω τ) (s : Site (Recorded ω τ) τ) : Site (Recorded ω τ) τ :=
  let factory := Runner.open plane.recorded settings
  match op with
  | .execute sub => (e.execute plane.recorded factory sub s).2
  | .toolchainVersion => (e.toolchainVersion plane.recorded factory s).2
  | .validateToolchain => (e.validateToolchain plane.recorded factory s).2
  | .acquire key => (Engine.acquire factory key s).2
  | .get key => (Pool.get? key s).2
  | .release key => (Pool.release plane.recorded key s).2
  | .shutdown => (Engine.shutdown plane.recorded s).2
  | .outside change =>
    { s with env := { s.env with world := { s.env.world with world := change s.env.world.world } } }

def history (env : Env ω τ) (ops : List (Operation ω τ)) : Site (Recorded ω τ) τ :=
  ops.foldl (fun s op => op.perform plane settings e s) { env := { env with world := ⟨env.world, []⟩ } }

end

namespace Holdings

theorem Sound.empty {plane : ControlPlane ω τ} {settings : Settings τ} :
    ({} : Holdings τ).Sound plane settings where
  keyed := .nil
  numbers := List.nodup_nil
  shown hm := by cases hm
  runner hm := by cases hm

theorem Acquires.registered {settings : Settings τ} {key : SessionKey} {h h' : Holdings τ}
    {added : List (PlaneCall τ)} {i : Nat}
    (ha : h.Acquires settings key added h' (.ok i)) : ∃ k, (k, i) ∈ h'.registry := by
  cases ha with
  | found hl =>
    obtain ⟨k, hm, _⟩ := Value.mem_of_lookUp hl
    exact ⟨k, hm⟩
  | opened => exact ⟨key, List.mem_append_right _ List.mem_cons_self⟩

variable [Seconds τ] {plane : ControlPlane ω τ} {settings : Settings τ}

theorem steps_of_attempts {h : Holdings τ} {k : SessionKey} {i : Nat} {r r' : Runner τ} {source : Raw}
    {added : List (PlaneCall τ)} {out : Except (Failure τ) RunOutcome} (hm : (k, i) ∈ h.registry)
    (hr : h.runners[i]? = some r) (ha : r.Attempts source added r' out) :
    h.Steps settings added (h.put i r') := by
  cases ha with
  | undelivered hi => exact (Step.acted hm hr (.inject hi)).steps
  | ran hi hrun =>
    have hfirst : h.Step settings _ _ := .acted hm hr (.inject hi)
    simpa only [put_put] using hfirst.steps.tail (.acted hm (getElem?_put hr _) (.run hrun))

theorem Proceeds.steps {orderly : Prop} {recycling : Bool} {source : Raw} {key k : SessionKey} {i : Nat}
    {h h' : Holdings τ} {added : List (PlaneCall τ)} {out : Except (Failure τ) ExecutionResult}
    (hp : h.Proceeds orderly recycling source key i added h' out) (hm : (k, i) ∈ h.registry) :
    h.Steps settings added h' := by
  cases hp with
  | failed hr ha | unmeasured hr ha => exact steps_of_attempts hm hr ha
  | recycled hr ha _ _ _ hl => exact (steps_of_attempts hm hr ha).tail (.released hl)
  | sampled hr ha hs | unsampled hr ha hs =>
    simpa only [put_put] using
      (steps_of_attempts hm hr ha).tail
        (.acted hm (getElem?_put hr _) (.sample hs rfl))

inductive Consults (settings : Settings τ) (key : SessionKey) (h : Holdings τ) :
    List (PlaneCall τ) → Holdings τ → Prop
  | refused {added h' f} (ha : h.Acquires settings key added h' (.error f)) : Consults settings key h added h'
  | asked {first h₁ i r more r'} {α : Type} {out : Except (Failure τ) α}
      (ha : h.Acquires settings key first h₁ (.ok i)) (hr : h₁.runners[i]? = some r) (hask : r.Asks more r' out) :
      Consults settings key h (first ++ more) (h₁.put i r')

theorem Consults.steps {key : SessionKey} {h h' : Holdings τ} {added : List (PlaneCall τ)}
    (hc : h.Consults settings key added h') : h.Steps settings added h' := by
  cases hc with
  | refused ha => exact (Step.acquired ha).steps
  | asked ha hr hask =>
    obtain ⟨k, hm⟩ := ha.registered
    exact (Step.acquired ha).steps.tail (.acted hm hr (.ask hask))

end Holdings

variable [Seconds τ] [Clock ω τ] {plane : ControlPlane ω τ} {settings : Settings τ} {e : Engine τ}
  {s : Site (Recorded ω τ) τ}

namespace Engine

theorem acquire_does (hp : plane.Legible settings) (key : SessionKey) :
    Does (acquire (Runner.open plane.recorded settings) key) s fun out added s' =>
      s.holdings.Acquires settings key added s'.holdings out := by
  unfold acquire
  split
  · rename_i hk
    exact Pool.acquire_does hp hk
  · exact .throw (.refused _)

theorem execute_cases (hp : plane.Legible settings) (hs : s.holdings.Sound plane settings)
    (e : Engine τ) (sub : Submission τ) :
    let acquired := acquire (Runner.open plane.recorded settings) (e.key sub) s
    let run := e.execute plane.recorded (Runner.open plane.recorded settings) sub s
    let orderly := Orderly ω (e.key sub) (Clock.now s.env.world : τ)
    ∃ first, acquired.2.env.world.calls = s.env.world.calls ++ first ∧
      s.holdings.Acquires settings (e.key sub) first acquired.2.holdings acquired.1 ∧
      ((run.2.env.world.calls = acquired.2.env.world.calls ∧ run.2.holdings = acquired.2.holdings ∧
          ∃ f, acquired.1 = .error f ∧ (orderly → ∃ res, run.1 = .ok res)) ∨
        ∃ i rest, acquired.1 = .ok i ∧
          run.2.env.world.calls = acquired.2.env.world.calls ++ rest ∧
          acquired.2.holdings.Proceeds orderly e.recycleOnTimeout sub.source (e.key sub) i rest
            run.2.holdings run.1) := by
  intro acquired run orderly
  obtain ⟨first, hfirst, ha⟩ := acquire_does (s := s) hp (e.key sub)
  refine ⟨first, hfirst, ha, ?_⟩
  have heq : run = _ := execute_eq plane.recorded (Runner.open plane.recorded settings) e sub s
  -- Without a runner there is nothing to recycle, so the failure is only told.
  rcases hacq : acquired with ⟨f | i, s₁⟩
  · have hrun : run = e.resolve plane.recorded (e.key sub) (e.seconds sub.timeout)
        (Clock.now s.env.world) none f s₁ := by rw [heq, show acquire _ _ _ = _ from hacq]
    have hs₁ : s₁.holdings.Sound plane settings := by
      have := ha.sound hp hs
      rwa [show acquire _ _ _ = _ from hacq] at this
    obtain ⟨more, hc, hr⟩ := resolve_does hs₁ e (e.key sub) (e.seconds sub.timeout)
      (Clock.now s.env.world) none f
    rcases hr with ⟨rfl, hh, hout⟩ | ⟨⟨_, _, _, _, ⟨⟩, _⟩, _⟩
    rw [hrun]
    exact .inl ⟨by rw [List.append_nil] at hc; exact hc, hh, f, rfl, fun h => (hout h).2⟩
  · have hrun : run = e.proceed plane.recorded sub (Clock.now s.env.world) i s₁ := by
      rw [heq, show acquire _ _ _ = _ from hacq]
    rw [show acquire _ _ _ = _ from hacq] at ha
    obtain ⟨k, hm⟩ := ha.registered
    obtain ⟨rest, hc, hproceeds⟩ := proceed_does (ha.sound hp hs) hm e sub
      (Clock.now s.env.world)
    rw [hrun]
    exact .inr ⟨i, rest, rfl, hc, hproceeds⟩

theorem execute_steps (hp : plane.Legible settings) (hs : s.holdings.Sound plane settings)
    (sub : Submission τ) : ∃ added,
      (e.execute plane.recorded (Runner.open plane.recorded settings) sub s).2.env.world.calls =
        s.env.world.calls ++ added ∧
      s.holdings.Steps settings added
        (e.execute plane.recorded (Runner.open plane.recorded settings) sub s).2.holdings := by
  obtain ⟨first, hfirst, ha, ⟨hc, hh, _⟩ | ⟨i, rest, hi, hc, hproceeds⟩⟩ := execute_cases hp hs e sub
  · exact ⟨first, hc.trans hfirst, hh ▸ (Holdings.Step.acquired ha).steps⟩
  · obtain ⟨k, hm⟩ := (hi ▸ ha).registered
    refine ⟨first ++ rest, by rw [hc, hfirst, List.append_assoc], ?_⟩
    exact (Holdings.Step.acquired ha).steps.trans (hproceeds.steps hm)

theorem asked_does {α : Type} (hp : plane.Legible settings) (hs : s.holdings.Sound plane settings)
    {x : RunnerAct (Recorded ω τ) τ α}
    (hx : ∀ seat : Seat (Recorded ω τ) τ, seat.runner.Legible plane →
      Does x seat fun out added seat' => seat.runner.Asks added seat'.runner out) :
    Does (do
      let i ← acquire (Runner.open plane.recorded settings) e.versionKey
      Site.withRunner i x) s fun _ added s' => s.holdings.Consults settings e.versionKey added s'.holdings := by
  refine .bind (acquire_does hp _) ?_ ?_
  · intro i first s₁ ha
    obtain ⟨k, hm⟩ := ha.registered
    obtain ⟨r, hr, hl, _⟩ := (ha.sound hp hs).runner hm
    refine (Site.does_withRunner (P := fun out added r' => r.Asks added r' out) hr (hx _ hl)).mono ?_
    rintro _ more s₂ ⟨r', hh, hask⟩
    rw [hh]
    exact .asked ha hr hask
  · intro f first s₁ ha
    exact .refused ha

end Engine

theorem perform_steps (hp : plane.Legible settings) (hs : s.holdings.Sound plane settings)
    (op : Operation ω τ) : ∃ added,
      Recording.calls (op.perform plane settings e s) = Recording.calls s ++ added ∧
        s.holdings.Steps settings added (op.perform plane settings e s).holdings := by
  cases op with
  | execute sub => exact Engine.execute_steps hp hs sub
  | toolchainVersion =>
    obtain ⟨added, hc, ha⟩ := Engine.asked_does (e := e) hp hs fun _ hl => Runner.toolchainVersion_does hl none
    exact ⟨added, hc, ha.steps⟩
  | validateToolchain =>
    obtain ⟨added, hc, ha⟩ := Engine.asked_does (e := e) hp hs fun _ hl => Runner.validateToolchain_does hl
    exact ⟨added, hc, ha.steps⟩
  | acquire key =>
    obtain ⟨added, hc, ha⟩ := Engine.acquire_does (s := s) hp key
    exact ⟨added, hc, (Holdings.Step.acquired ha).steps⟩
  | get key => exact ⟨[], (List.append_nil _).symm, .refl⟩
  | release key =>
    obtain ⟨added, hc, hr⟩ := Pool.release_does hs key
    exact ⟨added, hc, (Holdings.Step.released hr).steps⟩
  | shutdown =>
    obtain ⟨added, hc, hsteps, _⟩ := Pool.shutdown_does hs
    exact ⟨added, hc, hsteps⟩
  | outside change => exact ⟨[], (List.append_nil _).symm, .refl⟩

theorem history_steps (hp : plane.Legible settings) (env : Env ω τ) (ops : List (Operation ω τ)) :
    ({} : Holdings τ).Steps settings (Recording.calls (history plane settings e env ops))
      (history plane settings e env ops).holdings := by
  induction ops using List.reverseRecOn with
  | nil => exact .refl
  | append_singleton ops op ih =>
    have hlast : history plane settings e env (ops ++ [op]) =
        op.perform plane settings e (history plane settings e env ops) := List.foldl_append
    obtain ⟨added, hc, hsteps⟩ := perform_steps (e := e) hp (ih.sound hp .empty) op
    rw [hlast, hc]
    exact ih.trans hsteps

theorem history_sound (hp : plane.Legible settings) (env : Env ω τ) (ops : List (Operation ω τ)) :
    (history plane settings e env ops).holdings.Sound plane settings :=
  (history_steps hp env ops).sound hp .empty

end Playpen
