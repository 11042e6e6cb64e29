import Playpen.Proofs.Plane.Scripted
import Playpen.Proofs.Runner.History

namespace Playpen

open PlaneCall (Only)

variable {ω τ : Type}

namespace Runner

def Stirs (r : Runner τ) : Use ω τ → Prop
  | .start => r.environment = none ∧ (r.owns = true → ∃ parts, r.nameParts = .ok parts)
  | .run .. | .toolchainVersion _ | .validateToolchain => r.suspect = true ∧ r.environment.isSome = true
  | .memoryUsage => r.environment.isSome = true
  | .inject _ | .close | .outside _ => False

variable {r r' : Runner τ} {added : List (PlaneCall τ)}

theorem Starts.calls_iff {out : Except (Failure τ) Unit} (h : Starts r added r' out) :
    added ≠ [] ↔ r.environment = none ∧ (r.owns = true → ∃ parts, r.nameParts = .ok parts) := by
  cases h with
  | up h => simp [Option.isSome_iff_ne_none.mp h]
  | created he ho hc hn =>
    cases hc
    simp [he, hn]
  | failed he ho _ hn => simp [he, ho, hn]
  | attached he ho | absent he ho => simp [he, ho]

theorem Requires.of_closed {out : Except (Failure τ) EnvironmentId} (h : Requires r added r' out)
    (hc : r.closed = true) : added = [] ∧ r' = r ∧ ∀ id, out ≠ .ok id := by
  cases h with
  | closed => exact ⟨rfl, rfl, nofun⟩
  | up hn | down hn => simp [hc] at hn

theorem Closes.of_closed {out : Except (Failure τ) Unit} (h : Closes r added r' out) (hc : r.closed = true) :
    added = [] ∧ r' = r := by
  cases h with
  | already => exact ⟨rfl, rfl⟩
  | bare hn | removed hn => simp [hc] at hn

theorem Closes.environment {out : Except (Failure τ) Unit} (h : Closes r added r' out) (ho : r.owns = true)
    (hc : r.closed = false) : r'.environment = none := by
  cases h with
  | already h => simp [hc] at h
  | bare _ hn => exact hn.resolve_left (by simp [ho])
  | removed => rfl

theorem not_stirs_of_none {u : Use ω τ} (he : r.environment = none) (hu : u.isStart = false) : ¬ r.Stirs u := by
  cases u with
  | start => cases hu
  | _ => simp [Stirs, he]

variable [Seconds τ]

theorem Injects.of_closed {source : Raw} {out : Except (Failure τ) Unit} (h : Injects source r added r' out)
    (hc : r.closed = true) : added = [] ∧ r' = r := by
  cases h with
  | down hq => exact ⟨(hq.of_closed hc).1, (hq.of_closed hc).2.1⟩
  | unpacked hq | delivered hq => exact absurd rfl ((hq.of_closed hc).2.2 _)

theorem Verifies.calls_iff {out : Except (Failure τ) Unit} (h : Verifies r added r' out) :
    added ≠ [] ↔ r.suspect = true ∧ r.environment.isSome = true := by
  cases h with
  | trusted h => rcases h with h | h <;> simp [h]
  | alive hs he | unreachable hs he | gone hs he | stuck hs he | unreplaced hs he | replaced hs he =>
    simp [hs, he]

theorem Verifies.of_none {out : Except (Failure τ) Unit} (h : Verifies r added r' out)
    (he : r.environment = none) : r' = r := by
  cases h with
  | trusted => rfl
  | alive _ h | unreachable _ h | gone _ h | stuck _ h | unreplaced _ h | replaced _ h => simp [he] at h

theorem Readies.of_closed {out : Except (Failure τ) EnvironmentId} (h : Readies r added r' out)
    (hc : r.closed = true) : (∃ looked, Verifies r added r' looked) ∧ ∀ id, out ≠ .ok id := by
  cases h with
  | unverified hv => exact ⟨⟨_, hv⟩, nofun⟩
  | verified hv hq =>
    obtain ⟨rfl, rfl, hout⟩ := hq.of_closed (hv.keeps.closed.trans hc)
    exact ⟨⟨_, by simpa using hv⟩, hout⟩

theorem Runs.of_closed {out : Except (Failure τ) RunOutcome} (h : Runs r added r' out)
    (hc : r.closed = true) : ∃ looked, Verifies r added r' looked := by
  cases h with
  | down hr => exact (hr.of_closed hc).1
  | unready hr | failed hr | finished hr => exact absurd rfl ((hr.of_closed hc).2 _)

theorem Asks.of_closed {α : Type} {out : Except (Failure τ) α} (h : Asks r added r' out)
    (hc : r.closed = true) : ∃ looked, Verifies r added r' looked := by
  cases h with
  | down hr => exact (hr.of_closed hc).1
  | unready hr | asked hr => exact absurd rfl ((hr.of_closed hc).2 _)

theorem Samples.calls_iff {out : Except (Failure τ) Int} (h : Samples r added out) :
    added ≠ [] ↔ r.environment.isSome = true := by
  cases h with
  | down he | sampled he | unreadable he | unknown he | failed he => simp [he]

variable {u : Use ω τ} {uses : List (Use ω τ)} {out : Except (Failure τ) Unit}

theorem Performs.closed_only (h : Performs r u added r' out) (hc : r.closed = true) :
    Only [.create, .isRunning, .remove, .memoryUsage] added := by
  cases h with
  | start h => exact h.only.mono (by simp)
  | inject h => exact (h.of_closed hc).1 ▸ .nil _
  | run h =>
    obtain ⟨_, hv⟩ := h.of_closed hc
    exact hv.only.mono (by simp)
  | toolchainVersion h | validateToolchain h =>
    obtain ⟨_, hv⟩ := h.of_closed hc
    exact hv.only.mono (by simp)
  | memoryUsage h => exact h.only.mono (by simp)
  | close h => exact (h.of_closed hc).1 ▸ .nil _
  | outside => exact .nil _

theorem Performs.stirs_iff (h : Performs r u added r' out) (hc : r.closed = true) :
    added ≠ [] ↔ r.Stirs u := by
  cases h with
  | start h => exact h.calls_iff
  | inject h => simp [(h.of_closed hc).1, Stirs]
  | run h =>
    obtain ⟨_, hv⟩ := h.of_closed hc
    exact hv.calls_iff
  | toolchainVersion h | validateToolchain h =>
    obtain ⟨_, hv⟩ := h.of_closed hc
    exact hv.calls_iff
  | memoryUsage h => exact h.calls_iff
  | close h => simp [(h.of_closed hc).1, Stirs]
  | outside => simp [Stirs]

theorem Performs.of_closed (h : Performs r u added r' out) (hc : r.closed = true) (he : r.environment = none)
    (hu : u.isStart = false) : r' = r := by
  cases h with
  | start => cases hu
  | inject h => exact (h.of_closed hc).2
  | run h =>
    obtain ⟨_, hv⟩ := h.of_closed hc
    exact hv.of_none he
  | toolchainVersion h | validateToolchain h =>
    obtain ⟨_, hv⟩ := h.of_closed hc
    exact hv.of_none he
  | memoryUsage _ hr => exact hr
  | close h => exact (h.of_closed hc).2
  | outside => rfl

theorem Lives.of_closed {calls : List (PlaneCall τ)} (h : Lives r uses calls r') (hc : r.closed = true)
    (he : r.environment = none) (hu : ∀ u ∈ uses, u.isStart = false) : r' = r := by
  induction h with
  | unused => rfl
  | used h hp ih =>
    obtain rfl := ih fun u hm => hu u (List.mem_append_left _ hm)
    exact hp.of_closed hc he (hu _ (by simp))

end Runner

variable [Seconds τ] [Clock ω τ] {plane : ControlPlane ω τ} {settings : Settings τ} {key : SessionKey}

theorem Seat.environment_of_closed {s : Seat (Recorded ω τ) τ} (hl : s.runner.Legible plane)
    (ho : s.runner.owns = true) (hc : s.runner.closed = false) {uses : List (Use ω τ)}
    (hu : ∀ u ∈ uses, u.isStart = false) : (s.after plane (.close :: uses)).runner.environment = none := by
  obtain ⟨_, _, hclose⟩ := Runner.close_does hl
  obtain ⟨_, _, hlater⟩ := Seat.after_lives (s := (Runner.close plane.recorded s).2) (hclose.legible hl) uses
  have hclosed : (Runner.close plane.recorded s).2.runner.closed = true := by
    have hperforms : s.runner.Performs (ω := ω) .close _ _ _ := .close hclose
    rw [hperforms.keeps.closed, hc]
    rfl
  have hnone := hclose.environment ho hc
  exact (congrArg Runner.environment (hlater.of_closed hclosed hnone hu)).trans hnone

/-- A runner that was closed makes calls only when it is started without an environment, asked for the
memory that one takes, or about to look at one that is suspect. It writes, runs and kills nothing then.
One that owns its environment makes no call at all until it is started again. -/
theorem closed_calls (hk : ∃ t, key.display = .ok t) (hp : plane.Legible settings) (link : Link)
    (env : Env ω τ) (before after : List (Use ω τ)) (u : Use ω τ) :
    let s := (Seat.new settings key link env).after plane (before ++ .close :: after)
    let s' := (u.act plane s).2
    ∃ added, s'.env.world.calls = s.env.world.calls ++ added ∧
      (∀ c ∈ added, c.op ∈ [.create, .isRunning, .remove, .memoryUsage]) ∧
      (added ≠ [] ↔ s.runner.Stirs u) ∧
      (settings.ownsEnvironment = true → (∀ v ∈ before, v.isClose = false) →
        (∀ v ∈ u :: after, v.isStart = false) → added = []) := by
  intro s s'
  have hl := Seat.new_legible hk hp link env
  obtain ⟨calls, _, hlives⟩ := Seat.after_lives hl (before ++ .close :: after)
  obtain ⟨added, hc, hu⟩ := Use.act_does (hlives.legible hl) u
  have hclosed : s.runner.closed = true := by
    rw [hlives.closed]
    simp [Use.isClose]
  refine ⟨added, hc, hu.closed_only hclosed, hu.stirs_iff hclosed, fun ho hbefore hstart => ?_⟩
  -- Closing takes an owner's environment away, and only a start gives it another one.
  have hnone : s.runner.environment = none := by
    obtain ⟨_, _, hfirst⟩ := Seat.after_lives hl before
    have hopen : ((Seat.new settings key link env).after plane before).runner.closed = false := by
      rw [hfirst.closed]
      simpa [Seat.new] using hbefore
    show ((Seat.new settings key link env).after plane (before ++ .close :: after)).runner.environment = none
    rw [Seat.after_append]
    exact Seat.environment_of_closed (hfirst.legible hl) (hfirst.owns.trans ho) hopen
      fun v hv => hstart v (List.mem_cons_of_mem u hv)
  exact Decidable.not_not.mp fun hne =>
    Runner.not_stirs_of_none hnone (hstart u List.mem_cons_self) ((hu.stirs_iff hclosed).mp hne)

theorem closed_calls_started :
    let s : Seat (Recorded Script Double) Double :=
      (Seat.new Script.settings (.text "k") 0 { world := {} }).after Script.plane [.close]
    ∃ added, (Use.act Script.plane .start s).2.env.world.calls = s.env.world.calls ++ added ∧ added ≠ [] := by
  intro s
  have hkey : ∃ t, Value.display (.text "k") = .ok t := ⟨"k", rfl⟩
  obtain ⟨added, hc, _, hstirs, _⟩ := closed_calls hkey Script.legible 0 { world := {} } [] [] .start
  refine ⟨added, hc, hstirs.mpr ⟨?_, fun _ => ⟨("yz-sandbox", "k"), ?_⟩⟩⟩
  · decide +kernel
  · decide +kernel

theorem closed_not_inert : ¬ ∀ (w : Script) (before after : List (Use Script Double)) (u : Use Script Double),
    let s : Seat (Recorded Script Double) Double :=
      (Seat.new Script.settings (.text "k") 0 { world := w }).after Script.plane (before ++ .close :: after)
    (u.act Script.plane s).2.env.world.calls.length = s.env.world.calls.length := by
  intro h
  have hquiet := h {} [] [] .start
  revert hquiet
  decide +kernel

end Playpen
