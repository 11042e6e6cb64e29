import Playpen.Proofs.Plane.Scripted
import Playpen.Proofs.Runner.History

namespace Playpen

open PlaneCall (Only)

variable {ω τ : Type}

def PlaneCall.broke? : PlaneCall τ → Option (Failure τ)
  | .exec _ _ _ (.error f) => some f
  | _ => none

theorem PlaneCall.eq_of_broke? {c : PlaneCall τ} {f : Failure τ} (h : c.broke? = some f) :
    ∃ l id command, c = .exec l id command (.error f) := by
  unfold broke? at h
  split at h
  · cases h
    exact ⟨_, _, _, rfl⟩
  · cases h

namespace Runner

variable {r r' : Runner τ} {added : List (PlaneCall τ)}

def aborted (f : Failure τ) : Except (Failure τ) Unit → Failure τ
  | .ok _ => f
  | .error g => if g.isA .playground then f else g

theorem aborted_eq {f : Failure τ} {reply : Except (Failure τ) Unit}
    (h : ∀ g, reply = .error g → g.isA .playground = true) : aborted f reply = f := by
  cases reply with
  | ok => rfl
  | error g => rw [aborted, if_pos (h g rfl)]

theorem aborted_foreign {f g : Failure τ} (h : g.isA .playground = false) :
    aborted f (.error g) = g := by
  rw [aborted, h, if_neg Bool.false_ne_true]

variable [Seconds τ] {l : Link} {id : EnvironmentId} {command : Command τ} {f : Failure τ}

theorem Execs.timed_out {used : EnvironmentId} {line : Command τ} {out : Except (Failure τ) Capture}
    (h : Execs r used line added r' out) (hm : .exec l id command (.error f) ∈ added)
    (ht : f.isA .timeout = true) :
    ∃ reply, added = [.exec l id command (.error f), .terminate l id r.settings.user reply] ∧
      r'.suspect = true ∧ out = .error (aborted f reply) := by
  cases h with
  | ran => simp at hm
  | broke hn =>
    simp only [List.mem_singleton, PlaneCall.exec.injEq, Except.error.injEq] at hm
    obtain ⟨_, _, _, rfl⟩ := hm
    cases ht.symm.trans hn
  | stopped _ hr =>
    simp only [List.mem_cons, PlaneCall.exec.injEq, Except.error.injEq, reduceCtorEq, List.not_mem_nil,
      or_false] at hm
    obtain ⟨rfl, rfl, rfl, rfl⟩ := hm
    exact ⟨_, rfl, rfl, by rw [aborted_eq hr]⟩
  | runaway _ hf =>
    simp only [List.mem_cons, PlaneCall.exec.injEq, Except.error.injEq, reduceCtorEq, List.not_mem_nil,
      or_false] at hm
    obtain ⟨rfl, rfl, rfl, rfl⟩ := hm
    exact ⟨_, rfl, rfl, by rw [aborted_foreign hf]⟩

theorem Runs.timed_out {out : Except (Failure τ) RunOutcome} (h : Runs r added r' out)
    (hm : .exec l id command (.error f) ∈ added) (ht : f.isA .timeout = true) :
    ∃ before reply,
      added = before ++ [.exec l id command (.error f), .terminate l id r.settings.user reply] ∧
      Only [.isRunning, .remove, .create] before ∧ r'.environment = some id ∧ r'.suspect = true ∧
      out = .error (aborted f reply) := by
  cases h with
  | down hr | unready hr => exact absurd hm (hr.only.not_mem (by simp [PlaneCall.op]))
  | failed hr hx =>
    have hm := (List.mem_append.mp hm).resolve_left (hr.only.not_mem (by simp [PlaneCall.op]))
    obtain ⟨reply, rfl, hs, hout⟩ := hx.timed_out hm ht
    obtain ⟨_, _, hfirst, _⟩ := hx.exec_first
    obtain ⟨⟨rfl, rfl, rfl, rfl⟩, _⟩ := by simpa using hfirst
    rw [hr.keeps.settings]
    exact ⟨_, reply, rfl, hr.only, hx.environment.trans hr.environment, hs, by rw [Except.error.inj hout]⟩
  | finished hr hx =>
    have hm := (List.mem_append.mp hm).resolve_left (hr.only.not_mem (by simp [PlaneCall.op]))
    obtain ⟨_, _, _, hout⟩ := hx.timed_out hm ht
    cases hout

theorem Readies.suspect_iff (h : Readies r added r' (.ok id)) :
    r'.suspect = true ↔ r.suspect = true ∧ r.environment = none := by
  cases h with
  | verified hv hq =>
    rw [hq.suspect]
    -- Every look that lets the runner go on ends its suspicion.
    cases hv with
    | trusted h => rcases h with h | h <;> simp [h]
    | alive _ he | replaced _ he => simp [he]

theorem Asks.exec_last {α : Type} {out : Except (Failure τ) α} (h : Asks r added r' out)
    {reply : Except (Failure τ) Capture} (hm : .exec l id command reply ∈ added) :
    ∃ before, added = before ++ [.exec l id command reply] ∧ Only [.isRunning, .remove, .create] before ∧
      (r'.suspect = true ↔ r.suspect = true ∧ r.environment = none) := by
  cases h with
  | down hr | unready hr => exact absurd hm (hr.only.not_mem (by simp [PlaneCall.op]))
  | asked hr =>
    have hm := (List.mem_append.mp hm).resolve_left (hr.only.not_mem (by simp [PlaneCall.op]))
    rw [List.mem_singleton] at hm
    exact ⟨_, by rw [hm], hr.only, hr.suspect_iff⟩

theorem Performs.timed_out {u : Use ω τ} {out : Except (Failure τ) Unit} (h : Performs r u added r' out)
    (hm : .exec l id command (.error f) ∈ added) (ht : f.isA .timeout = true) :
    ∃ first, Only [.isRunning, .remove, .create] first ∧
      (u.isRun = true ∧ r'.suspect = true ∧
          (∃ reply, added = first ++ [.exec l id command (.error f), .terminate l id r.settings.user reply]) ∨
        u.isProbe = true ∧ (r'.suspect = true ↔ r.suspect = true ∧ r.environment = none) ∧
          added = first ++ [.exec l id command (.error f)]) := by
  cases h with
  | run h =>
    obtain ⟨first, reply, hadded, honly, _, hs, _⟩ := h.timed_out hm ht
    exact ⟨first, honly, .inl ⟨rfl, hs, reply, hadded⟩⟩
  | toolchainVersion h | validateToolchain h =>
    obtain ⟨first, hadded, honly, hs⟩ := h.exec_last hm
    exact ⟨first, honly, .inr ⟨rfl, hs, hadded⟩⟩
  | start h => exact absurd hm (h.only.not_mem (by simp [PlaneCall.op]))
  | inject h => exact absurd hm (h.only.not_mem (by simp [PlaneCall.op]))
  | memoryUsage h => exact absurd hm (h.only.not_mem (by simp [PlaneCall.op]))
  | close h => exact absurd hm (h.only.not_mem (by simp [PlaneCall.op]))
  | outside => cases hm

end Runner

/-- A command times out in a run or in a question for the compiler's version. A run aborts it where it
runs, whatever comes of that, and the runner is suspect from then on. After a question nothing is
aborted, and the runner is not suspect, unless it was already and had no environment to look at. -/
theorem exec_timed_out [Seconds τ] [Clock ω τ] {plane : ControlPlane ω τ} {settings : Settings τ}
    {key : SessionKey} (hk : ∃ t, key.display = .ok t) (hp : plane.Legible settings) (link : Link)
    (env : Env ω τ) (uses : List (Use ω τ)) (u : Use ω τ) :
    let s := (Seat.new settings key link env).after plane uses
    let s' := (u.act plane s).2
    ∃ added, s'.env.world.calls = s.env.world.calls ++ added ∧
      ∀ l id command f, .exec l id command (.error f) ∈ added → f.isA .timeout = true →
        ∃ first, (∀ c ∈ first, c.op ≠ .exec ∧ c.op ≠ .terminate) ∧
          (u.isRun = true ∧ s'.runner.suspect = true ∧
              (∃ reply, added = first ++ [.exec l id command (.error f), .terminate l id settings.user reply]) ∨
            u.isProbe = true ∧
              (s'.runner.suspect = true ↔ s.runner.suspect = true ∧ s.runner.environment = none) ∧
              added = first ++ [.exec l id command (.error f)]) := by
  intro s s'
  have hl := Seat.new_legible hk hp link env
  obtain ⟨calls, _, hlives⟩ := Seat.after_lives hl uses
  obtain ⟨added, hc, hu⟩ := Use.act_does (hlives.legible hl) u
  refine ⟨added, hc, fun l id command f hm ht => ?_⟩
  obtain ⟨first, honly, hends⟩ := hu.timed_out hm ht
  rw [show s.runner.settings = settings from hlives.settings] at hends
  refine ⟨first, fun c hcall => ?_, hends⟩
  constructor <;> intro hop <;> simpa [hop] using honly c hcall

theorem exec_timed_out_stalled :
    let s : Seat (Recorded Script Double) Double := .new Script.settings (.text "k") 0 { world := Script.stalled }
    let s' := (Use.act Script.plane (.run false none) s).2
    ∃ l id command f first reply, s'.env.world.calls =
        first ++ [.exec l id command (.error f), .terminate l id Script.settings.user reply] ∧
      f.isA .timeout = true ∧ s'.runner.suspect = true := by
  have hexec : ∃ c ∈ (Use.act Script.plane (.run false none) (.new Script.settings (.text "k") 0
      { world := Script.stalled })).2.env.world.calls, ∃ f ∈ c.broke?, f.isA .timeout = true := by
    decide +kernel
  intro s s'
  have hkey : ∃ t, Value.display (.text "k") = .ok t := ⟨"k", rfl⟩
  obtain ⟨added, hc, h⟩ := exec_timed_out hkey Script.legible 0 { world := Script.stalled } [] (.run false none)
  have hc : s'.env.world.calls = added := hc
  obtain ⟨c, hm, f, hf, ht⟩ := hexec
  obtain ⟨l, id, command, rfl⟩ := PlaneCall.eq_of_broke? hf
  obtain ⟨first, _, ⟨_, hs, reply, hadded⟩ | ⟨hprobe, _⟩⟩ := h l id command f (hc ▸ hm) ht
  · exact ⟨l, id, command, f, first, reply, hc.trans hadded, ht, hs⟩
  · cases hprobe

theorem probe_not_aborted : ¬ ∀ (w : Script) (u : Use Script Double),
    let s : Seat (Recorded Script Double) Double := .new Script.settings (.text "k") 0 { world := w }
    let s' := (u.act Script.plane s).2
    ∀ l id command f, .exec l id command (.error f) ∈ s'.env.world.calls → f.isA .timeout = true →
      (∃ user reply, .terminate l id user reply ∈ s'.env.world.calls) ∧ s'.runner.suspect = true := by
  intro h
  have hexec : ∃ c ∈ (Use.act Script.plane (.toolchainVersion none) (.new Script.settings (.text "k") 0
      { world := Script.stalled })).2.env.world.calls, ∃ f ∈ c.broke?, f.isA .timeout = true := by
    decide +kernel
  obtain ⟨c, hm, f, hf, ht⟩ := hexec
  obtain ⟨l, id, command, rfl⟩ := PlaneCall.eq_of_broke? hf
  have hsuspect := (h Script.stalled (.toolchainVersion none) l id command f hm ht).2
  revert hsuspect
  decide +kernel

end Playpen
