import Playpen.Proofs.Engine.History
import Playpen.Proofs.Plane.Scripted
import Playpen.Proofs.Runner.Calls
/-!
Which failures come out of an execution: those of sampling the memory, and of giving up the session after
a timeout, that the sandbox does not know as its own.
-/
namespace Playpen

open PlaneCall (Only)

variable {ω τ : Type}

def leftover : List (PlaneCall τ) → Option (Failure τ)
  | .memoryUsage _ _ (.error f) :: _ => some f
  | .memoryUsage _ _ (.ok v) :: _ =>
    match v.toInt with
    | .ok _ => none
    | .error m => some m.failure
  | .close _ (.error f) :: _ => some f
  | .close _ (.ok _) :: .remove _ _ (.error f) :: _ => some f
  | _ => none

/-- The failure that gets out of an execution which made these calls after acquiring a runner. -/
def escaping (calls : List (PlaneCall τ)) : Option (Failure τ) :=
  (leftover calls.reverse).filter fun f => !f.isA .playground

theorem Failure.isA_playground {f : Failure τ} {k : Kind} (hk : k = .controlPlane ∨ k = .timeout)
    (h : f.isA k = true) : f.isA .playground = true := by
  unfold Failure.isA at *
  rcases hk with rfl | rfl <;> cases hf : f.kind <;> rw [hf] at h <;> revert h <;> decide

theorem Misuse.failure_isA (m : Misuse) : (m.failure : Failure τ).isA .playground = false := by
  cases m <;> rfl

theorem leftover_eq_none {calls : List (PlaneCall τ)}
    (h : Only [.create, .isRunning, .inject, .remove, .exec, .terminate] calls) :
    leftover calls.reverse = none := by
  cases hr : calls.reverse with
  | nil => rfl
  | cons c rest =>
    have hop := h c (List.mem_reverse.mp (hr ▸ List.mem_cons_self))
    cases c <;> simp [PlaneCall.op] at hop <;> rfl

theorem leftover_close_ok {l : Link} {u : Unit} {calls : List (PlaneCall τ)}
    (h : ∀ l id f, .remove l id (.error f) ∈ calls → f.isA .playground = true) :
    (leftover (.close l (.ok u) :: calls)).filter (fun f => !f.isA .playground) = none := by
  cases calls with
  | nil => rfl
  | cons c calls =>
    cases c with
    | remove l' id reply =>
      cases reply with
      | ok _ => rfl
      | error f => simp [leftover, h l' id f List.mem_cons_self]
    | _ => rfl

namespace Runner

variable [Seconds τ] {r r' : Runner τ} {added : List (PlaneCall τ)}

theorem Verifies.removal {out : Except (Failure τ) Unit} (h : Verifies r added r' out) {l : Link}
    {id : EnvironmentId} {f : Failure τ} (hm : .remove l id (.error f) ∈ added) :
    f.isA .playground = true ∨ out = .error f := by
  cases h with
  | trusted | alive | unreachable | gone => simp at hm
  | stuck =>
    simp only [List.mem_cons, List.not_mem_nil, or_false, reduceCtorEq, false_or,
      PlaneCall.remove.injEq, Except.error.injEq] at hm
    exact .inr (by rw [hm.2.2])
  | unreplaced _ _ _ hr hc | replaced _ _ _ hr hc =>
    rcases List.mem_cons.mp hm with hm | hm
    · cases hm
    rcases List.mem_cons.mp hm with hm | hm
    · cases hm
      exact .inl (Failure.isA_playground (.inl rfl) (hr f rfl))
    · exact absurd hm (hc.only.not_mem (by simp [PlaneCall.op]))

theorem Readies.removal {out : Except (Failure τ) EnvironmentId} (h : Readies r added r' out) {l : Link}
    {id : EnvironmentId} {f : Failure τ} (hm : .remove l id (.error f) ∈ added) :
    f.isA .playground = true ∨ out = .error f := by
  cases h with
  | unverified hv => exact (hv.removal hm).imp_right fun h => by rw [Except.error.inj h]
  | verified hv hq =>
    rcases List.mem_append.mp hm with hm | hm
    · exact .inl ((hv.removal hm).resolve_right (by simp))
    · exact absurd hm (hq.only.not_mem (by simp [PlaneCall.op]))

theorem Attempts.removal {source : Raw} {out : Except (Failure τ) RunOutcome}
    (h : Attempts source r added r' out) {l : Link} {id : EnvironmentId} {f : Failure τ}
    (hm : .remove l id (.error f) ∈ added) : f.isA .playground = true ∨ out = .error f := by
  cases h with
  | undelivered hi => exact absurd hm (hi.only.not_mem (by simp [PlaneCall.op]))
  | ran hi hr =>
    have hm := (List.mem_append.mp hm).resolve_left (hi.only.not_mem (by simp [PlaneCall.op]))
    cases hr with
    | down hr => exact (hr.removal hm).imp_right fun h => by rw [Except.error.inj h]
    | unready hr => exact .inl ((hr.removal hm).resolve_right (by simp))
    | failed hr hx | finished hr hx =>
      have hm := (List.mem_append.mp hm).resolve_right (hx.only.not_mem (by simp [PlaneCall.op]))
      exact .inl ((hr.removal hm).resolve_right (by simp))

theorem Closes.escaping {c q : Runner τ} {source : Raw} {f : Failure τ} {more : List (PlaneCall τ)}
    {out : Except (Failure τ) Unit} (hc : Closes c more q out)
    (ha : Attempts source r added r' (.error f)) (ht : f.isA .timeout = true) (g : Failure τ) :
    out = .error g ∧ g.isA .playground = false ↔ escaping (added ++ more) = some g := by
  cases hc with
  | already => simp [Playpen.escaping, leftover_eq_none ha.only]
  | bare =>
    unfold Playpen.escaping
    rw [List.reverse_append, List.reverse_singleton, List.singleton_append]
    cases out with
    | error e => simp only [leftover, Option.filter_eq_some_iff, Except.error.injEq, Option.some.injEq,
        Bool.not_eq_true']
    | ok u =>
      -- What stands in front of the closing belongs to the run, which put up with it or timed out.
      have hremoval : ∀ l id e, .remove l id (.error e) ∈ added.reverse → e.isA .playground = true := by
        intro l id e hm
        rcases ha.removal (List.mem_reverse.mp hm) with h | h
        · exact h
        · cases h
          exact Failure.isA_playground (.inr rfl) ht
      simp [leftover_close_ok hremoval]
  | @removed id removal closing =>
    unfold Playpen.escaping
    have hrev : (added ++ [PlaneCall.remove c.link id removal, .close c.link closing]).reverse =
        .close c.link closing :: .remove c.link id removal :: added.reverse := by simp
    rw [hrev]
    rcases closing with e | _
    · simp [leftover, Except.bind, Option.filter_eq_some_iff]
    · rcases removal with e | _
      · simp [leftover, Except.bind, Option.filter_eq_some_iff]
      · simp [leftover, Except.bind]

end Runner

theorem Holdings.Proceeds.escaping [Seconds τ] {orderly : Prop} {recycling : Bool} {source : Raw}
    {key : SessionKey} {i : Nat} {h h' : Holdings τ} {added : List (PlaneCall τ)}
    {out : Except (Failure τ) ExecutionResult}
    (hp : h.Proceeds orderly recycling source key i added h' out) (ho : orderly)
    (hd : ∃ t, key.display = .ok t) (f : Failure τ) :
    out = .error f ↔ Playpen.escaping added = some f := by
  cases hp with
  | failed hr ha hout =>
    obtain ⟨_, res, rfl⟩ := hout ho
    simp [Playpen.escaping, leftover_eq_none ha.only]
  | recycled hr ha ht _ _ hl hout =>
    rw [hout ho f]
    cases hl with
    | absent => simp [Playpen.escaping, leftover_eq_none ha.only]
    | released _ _ hc hreply =>
      rw [hreply hd]
      exact hc.escaping ha ht f
  | unmeasured _ _ hn => exact absurd ho hn
  | sampled hr ha hm hout =>
    obtain ⟨res, rfl⟩ := hout ho
    cases hm with
    | down => simp [Playpen.escaping, leftover_eq_none ha.only]
    | sampled he hv => simp [Playpen.escaping, leftover, hv]
    | unknown he hp =>
      simp only [Playpen.escaping, List.reverse_append, List.reverse_singleton, List.singleton_append,
        leftover, Option.filter_some, hp]
      simp
  | unsampled hr ha hm =>
    cases hm with
    | unreadable he hv =>
      simp only [Playpen.escaping, List.reverse_append, List.reverse_singleton, List.singleton_append,
        leftover, hv, Option.filter_some, Misuse.failure_isA]
      simp
    | failed he hp =>
      simp only [Playpen.escaping, List.reverse_append, List.reverse_singleton, List.singleton_append,
        leftover, Option.filter_some, hp]
      simp

variable [Seconds τ] [Clock ω τ] {plane : ControlPlane ω τ} {settings : Settings τ}

/-- Once a runner is acquired, an execution fails with what its calls leave over, and only with that; as
long as it has none it returns. -/
theorem execute_fails_iff (hp : plane.Legible settings) (e : Engine τ) (env : Env ω τ)
    (ops : List (Operation ω τ)) (sub : Submission τ) (hd : ∃ t, (e.key sub).display = .ok t)
    (hclock : ∀ w : ω, Measures ω (Clock.now w : τ)) :
    let factory := Runner.open plane.recorded settings
    let s := history plane settings e env ops
    let s₁ := (Engine.acquire factory (e.key sub) s).2
    let run := e.execute plane.recorded factory sub s
    ∃ rest, run.2.env.world.calls = s₁.env.world.calls ++ rest ∧
      ∀ f, run.1 = .error f ↔ escaping rest = some f := by
  intro factory s s₁ run
  have ho : Orderly ω (e.key sub) (Clock.now s.env.world : τ) := ⟨hd, hclock s.env.world.world⟩
  obtain ⟨_, _, _, ⟨hc, _, _, _, hout⟩ | ⟨_, rest, _, hc, hproceeds⟩⟩ :=
    Engine.execute_cases (s := s) hp (history_sound hp env ops) e sub
  · obtain ⟨res, hres⟩ := hout ho
    refine ⟨[], by rw [hc, List.append_nil], fun f => ?_⟩
    rw [hres]
    simp [escaping, leftover]
  · exact ⟨rest, hc, fun f => hproceeds.escaping ho hd f⟩

theorem execute_fails_at_sampling :
    let e := Script.engine true
    let w : Script := { memory := .error (.other .runtime (some "stats unavailable")) }
    let s₁ := (Engine.acquire (Runner.open Script.plane.recorded Script.settings) (e.key Script.submission)
      (Script.site e w [])).2
    let run := Script.execution e w []
    (∃ rest, run.2.env.world.calls = s₁.env.world.calls ++ rest ∧
      ∀ f, run.1 = .error f ↔ escaping rest = some f) ∧
    run.1 = .error (.other .runtime (some "stats unavailable")) := by
  refine ⟨?_, by decide +kernel⟩
  unfold Script.execution Script.site
  exact execute_fails_iff Script.legible _ _ [] _ ⟨"default", rfl⟩ Script.measures

theorem execute_not_total : ¬ ∀ w : Script, ∃ res, (Script.execution (Script.engine true) w []).1 = .ok res := by
  intro h
  obtain ⟨res, hres⟩ := h { memory := .error (.other .runtime (some "stats unavailable")) }
  have hfails : (Script.execution (Script.engine true)
      { memory := .error (.other .runtime (some "stats unavailable")) } []).1 =
      .error (.other .runtime (some "stats unavailable")) := by
    decide +kernel
  cases hres.symm.trans hfails

end Playpen
