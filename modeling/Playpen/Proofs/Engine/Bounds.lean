import Playpen.Proofs.Config.Settings
import Playpen.Proofs.Engine.Invariant
import Playpen.Proofs.Plane.Scripted
import Playpen.Proofs.Runner.Accord

namespace Playpen

theorem Runner.has_conforms {ω τ : Type} [Seconds τ] [Clock ω τ] (plane : ControlPlane ω τ)
    (settings : Settings τ) : Conforms plane settings (Has settings) (PlaneCall.Accords settings) :=
  .of_besides (plane.recorded_besides fun _ h _ => h) (fun _ _ => rfl) fun _ _ _ _ ht =>
    calls_recorded fun _ => ⟨rfl, rfl, ht⟩

def PlaneCall.memoryLimit? {τ : Type} : PlaneCall τ → Option Int
  | .create _ spec _ _ => some spec.memoryLimit
  | _ => none

/-- An environment is made with a memory limit, and a command run with a time limit above zero. -/
def PlaneCall.Bounded : PlaneCall Double → Prop
  | .create _ spec _ _ => 1 ≤ spec.memoryLimit
  | .exec _ _ command _ => command.timeout.IsPositive
  | _ => True

namespace Config

variable {settings : Settings Double}

theorem timeLimit_positive {ceiling now t : Double} {deadline : Option Double} (hc : ceiling.IsPositive)
    (h : Runner.timeLimit ceiling now deadline = .ok t) : t.IsPositive := by
  cases deadline with
  | none =>
    cases h
    exact hc
  | some deadline =>
    unfold Runner.timeLimit at h
    dsimp only at h
    split at h
    · cases h
    · rename_i hleft
      cases h
      unfold Seconds.min
      split
      · rename_i hlt
        -- What is compared as less is not NaN, and it is not at most zero either.
        have hleft : (Seconds.sub deadline now : Double).le (Double.zero false) = false :=
          Bool.eq_false_iff.mpr hleft
        obtain hnan | hpositive := Double.le_zero_eq_false.mp hleft
        · rw [hnan] at hlt
          cases hlt
        · exact hpositive
      · exact hc

theorem Bounded.allots (h : Bounded settings) {t : Double} (ht : settings.Allots t) : t.IsPositive := by
  obtain rfl | ⟨now, deadline, hlimit⟩ := ht
  · exact h.controlTimeout
  · exact timeLimit_positive h.maxExecutionTime hlimit

theorem Bounded.calls (h : Bounded settings) {c : PlaneCall Double} (hc : c.Accords settings) : c.Bounded := by
  cases c with
  | create l spec reply =>
    obtain ⟨name, rfl⟩ := hc
    exact h.memoryLimit
  | exec l id command reply => exact h.allots hc.2.2
  | _ => trivial

/-- A configuration that passes its checks has settings with limits exactly if its memory limit is at least
one megabyte, its time limits are numbers in range, and its noise markers are a collection. Settings that
come about otherwise have no memory limit, from a fraction of a megabyte, or a time limit that is not a
number. With limits, no history makes an environment or runs a command without one. -/
theorem validated_bounds {c : Config} (hc : validate c = .ok ()) {ω : Type} [Clock ω Double]
    (plane : ControlPlane ω Double) (e : Engine Double) (env : Env ω Double)
    (ops : List (Operation ω Double)) :
    ((∃ settings, c.settings = .ok settings ∧ Bounded settings) ↔
      c.sandbox.memoryLimit.Numbers Number.IsCount ∧ c.sandbox.maxExecutionTime.Numbers Number.IsSpan ∧
        c.sandbox.controlTimeout.Numbers Number.IsSpan ∧ c.toolchain.noiseMarkers.isCollection = true) ∧
    ∀ settings, c.settings = .ok settings →
      (¬ 1 ≤ settings.memoryLimit →
        settings.memoryLimit = 0 ∧ c.sandbox.memoryLimit.Numbers Number.IsFraction) ∧
      (¬ settings.maxExecutionTime.IsPositive →
        settings.maxExecutionTime = .nan ∧ c.sandbox.maxExecutionTime.number? = some (.float .nan)) ∧
      (¬ settings.controlTimeout.IsPositive →
        settings.controlTimeout = .nan ∧ c.sandbox.controlTimeout.number? = some (.float .nan)) ∧
      (Bounded settings → ∀ call ∈ (history plane settings e env ops).env.world.calls, call.Bounded) := by
  obtain ⟨hm, ht, hu⟩ := numbers_of_validate hc
  refine ⟨bounded_iff hc, fun settings hs => ?_⟩
  have hconverts := converts_of_settings hs
  refine ⟨fun hn => ?_, fun hn => ?_, fun hn => ?_, fun hb call hcall => ?_⟩
  · obtain ⟨_, h⟩ | ⟨hfraction, hzero⟩ := hconverts.memoryLimit_cases hm
    · exact absurd h hn
    · exact ⟨hzero, hfraction⟩
  · obtain ⟨_, h⟩ | ⟨hnumber, hnan⟩ := span_or_nan ht hconverts.maxExecutionTime
    · exact absurd h hn
    · exact ⟨hnan, hnumber⟩
  · obtain ⟨_, h⟩ | ⟨hnumber, hnan⟩ := span_or_nan hu hconverts.controlTimeout
    · exact absurd h hn
    · exact ⟨hnan, hnumber⟩
  · exact hb.calls (((Runner.has_conforms plane settings).history e env ops).calls call hcall)

theorem validated_bounds_standard :
    let c : Config := {}
    validate c = .ok () ∧ ∃ settings, c.settings = .ok settings ∧ Bounded settings ∧
      ∀ call ∈ (history Script.plane settings (Script.engine true) { world := {} }
        [.acquire (.text "k")]).env.world.calls, call.Bounded := by
  intro c
  have hspan {i : Int} (hi : 1 ≤ i) : (Value.float (Double.ofInt i)).Numbers Number.IsSpan :=
    ⟨_, rfl, .float (Double.ofInt_positive hi)⟩
  obtain ⟨hbounded, hcalls⟩ := validated_bounds validate_default Script.plane (Script.engine true)
    { world := {} } [.acquire (.text "k")]
  obtain ⟨settings, hs, hb⟩ := hbounded.mpr
    ⟨⟨_, rfl, .int (by decide)⟩, hspan (i := 10) (by decide), hspan (i := 30) (by decide), rfl⟩
  exact ⟨validate_default, settings, hs, hb, (hcalls settings hs).2.2.2 hb⟩

theorem validated_unlimited :
    let half : Double := .finite ⟨false, Double.leadingBit, 1021, by decide⟩
    let c : Config := { sandbox := { memoryLimit := .float half } }
    let made (settings : Settings Double) : List Int :=
      let s := history Script.plane settings (Script.engine true) { world := {} } [.acquire (.text "k")]
      s.env.world.calls.filterMap PlaneCall.memoryLimit?
    validate c = .ok () ∧ (∃ settings, c.settings = .ok settings ∧ made settings = [0]) ∧
      ¬ ∃ settings, c.settings = .ok settings ∧ Bounded settings := by
  intro half c made
  have hvalid : (validate c).toOption = some () := by decide +kernel
  have hlimit : c.settings.toOption.map Settings.memoryLimit = some 0 := by decide +kernel
  have hmade : c.settings.toOption.map made = some [0] := by decide +kernel
  cases hv : validate c with
  | error f => simp [hv, Except.toOption] at hvalid
  | ok _ =>
    cases hs : c.settings with
    | error m => simp [hs, Except.toOption] at hlimit
    | ok settings =>
      rw [hs] at hlimit hmade
      refine ⟨rfl, ⟨settings, rfl, Option.some.inj hmade⟩, ?_⟩
      rintro ⟨_, ⟨⟩, hb⟩
      have := Option.some.inj hlimit ▸ hb.memoryLimit
      omega

end Config

end Playpen
