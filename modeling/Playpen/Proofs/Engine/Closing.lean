import Playpen.Proofs.Engine.Attached
import Playpen.Proofs.Engine.Failures
import Playpen.Proofs.Engine.Ledger

namespace Playpen

open Act (Does)
open PlaneCall (created? removed?)

variable {ω τ : Type}

namespace PlaneCall

def failure? : PlaneCall τ → Option (Failure τ)
  | connect _ (.error f) | create _ _ _ (.error f) | inject _ _ _ _ (.error f) | exec _ _ _ (.error f)
  | terminate _ _ _ (.error f) | isRunning _ _ (.error f) | memoryUsage _ _ (.error f) | remove _ _ (.error f)
  | close _ (.error f) => some f
  | _ => none

structure Civil (c : PlaneCall τ) : Prop where
  failure (f : Failure τ) : c.failure? = some f → f.isA .playground = true
  sample (l : Link) (id : EnvironmentId) (v : Value) : c = .memoryUsage l id (.ok v) → ∃ i, v = .int i

def isCivil : PlaneCall τ → Bool
  | memoryUsage _ _ (.ok (.int _)) => true
  | memoryUsage _ _ (.ok _) => false
  | c => c.failure?.all fun f => f.isA .playground

theorem civil_of_isCivil {c : PlaneCall τ} (h : c.isCivil = true) : c.Civil := by
  unfold isCivil at h
  split at h
  · exact ⟨nofun, fun _ _ _ heq => by cases heq; exact ⟨_, rfl⟩⟩
  · cases h
  · rename_i hanswer
    constructor
    · intro f hf
      rw [hf] at h
      exact h
    · intro l id v heq
      exact (hanswer l id v heq).elim

end PlaneCall

theorem leftover_of_civil {calls : List (PlaneCall τ)} {f : Failure τ} (h : ∀ c ∈ calls, c.Civil)
    (hf : leftover calls = some f) : f.isA .playground = true := by
  unfold leftover at hf
  split at hf
  · cases hf
    exact (h _ List.mem_cons_self).failure f rfl
  · rename_i v _
    obtain ⟨i, rfl⟩ := (h _ List.mem_cons_self).sample _ _ _ rfl
    cases hf
  · cases hf
    exact (h _ List.mem_cons_self).failure f rfl
  · cases hf
    exact (h _ (List.mem_cons_of_mem _ List.mem_cons_self)).failure f rfl
  · cases hf

theorem escaping_of_civil {calls : List (PlaneCall τ)} (h : ∀ c ∈ calls, c.Civil) : escaping calls = none := by
  unfold escaping
  cases hf : leftover calls.reverse with
  | none => rfl
  | some f =>
    have hcivil : ∀ c ∈ calls.reverse, c.Civil := fun c hc => h c (List.mem_reverse.mp hc)
    simp [leftover_of_civil hcivil hf]

theorem Runner.Closes.failed {r r' : Runner τ} {added : List (PlaneCall τ)} {f : Failure τ}
    (h : Runner.Closes r added r' (.error f)) : ∃ c ∈ added, c.failure? = some f := by
  generalize hout : (Except.error f : Except (Failure τ) Unit) = out at h
  cases h with
  | already => cases hout
  | bare =>
    subst hout
    exact ⟨_, List.mem_singleton_self _, rfl⟩
  | @removed id removal closing =>
    cases closing with
    | error e =>
      cases hout
      exact ⟨_, List.mem_cons_of_mem _ List.mem_cons_self, rfl⟩
    | ok u =>
      have hremoval : removal = .error f := hout.symm
      subst hremoval
      exact ⟨_, List.mem_cons_self, rfl⟩

theorem Holdings.Releases.failed {key : SessionKey} {h h' : Holdings τ} {added : List (PlaneCall τ)}
    {f : Failure τ} (hr : h.Releases key added h' (.error f)) (hd : ∃ t, key.display = .ok t) :
    ∃ c ∈ added, c.failure? = some f := by
  generalize hout : (Except.error f : Except (Failure τ) Unit) = out at hr
  cases hr with
  | absent => cases hout
  | released _ _ hc hreply =>
    rw [← hout] at hreply
    rw [← hreply hd] at hc
    exact hc.failed

variable [Seconds τ] {plane : ControlPlane ω τ} {settings : Settings τ} {s : Site (Recorded ω τ) τ}

namespace Pool

theorem releaseAll_failed (keys : List SessionKey) (hd : ∀ key ∈ keys, ∃ t, key.display = .ok t)
    (failures : Nat) (last : Option (Failure τ)) (hs : s.holdings.Sound plane settings) :
    Does (releaseAll plane.recorded keys failures last) s fun out added _ =>
      ∀ sum f, out = .ok (sum, some f) → last = some f ∨ ∃ c ∈ added, c.failure? = some f := by
  induction keys generalizing s failures last with
  | nil =>
    apply Does.pure
    rintro sum f h
    cases h
    exact .inl rfl
  | cons key keys ih =>
    obtain ⟨hk, hd⟩ := List.forall_mem_cons.mp hd
    unfold releaseAll
    refine .bind_of_ok (.outcome (release_does hs key)) ?_
    intro reply added s₁ hr
    have hs₁ := hr.sound hs
    cases reply with
    | ok _ =>
      refine (ih hd failures last hs₁).mono ?_
      intro out more _ h sum f hout
      refine (h sum f hout).imp_right ?_
      rintro ⟨c, hc, hf⟩
      exact ⟨c, List.mem_append_right _ hc, hf⟩
    | error e =>
      refine .bind (Site.does_noteOf .error key _) ?_ ?_
      · rintro _ _ s₂ ⟨hh, rfl, _⟩
        refine (ih hd (failures + 1) (some e) (hh ▸ hs₁)).mono ?_
        intro out more _ h sum f hout
        right
        obtain he | ⟨c, hc, hf⟩ := h sum f hout
        · cases he
          obtain ⟨c, hc, hf⟩ := hr.failed hk
          exact ⟨c, List.mem_append_left _ hc, hf⟩
        · exact ⟨c, List.mem_append_right _ hc, hf⟩
      · rintro f _ s₂ ⟨_, _, hshown⟩
        cases hshown.mpr hk

theorem shutdown_failed (hs : s.holdings.Sound plane settings) :
    Does (shutdown plane.recorded) s fun out added _ =>
      ∀ f, out = .error f → ∃ c ∈ added, c.failure? = some f := by
  have hd : ∀ key ∈ s.registry.map (·.1), ∃ t, key.display = .ok t := by
    intro key hkey
    obtain ⟨e, he, rfl⟩ := List.mem_map.mp hkey
    exact hs.shown he
  unfold shutdown
  refine .step (t := s) rfl rfl (.bind
    ((releaseAll_failed _ hd 0 none hs).also (Q := fun out => ∃ sum, out = .ok sum) ?_) ?_ ?_)
  · obtain ⟨_, _, hok, _⟩ := releaseAll_does _ hd 0 none hs
    exact hok
  · rintro ⟨failures, last⟩ added s₁ ⟨_, h⟩
    cases last with
    | none => exact .pure nofun
    | some e =>
      refine .step rfl rfl (.throw ?_)
      rintro f ⟨⟩
      rw [List.append_nil]
      exact (h failures e rfl).resolve_left nofun
  · rintro e added s₁ ⟨⟨_, ⟨⟩⟩, _⟩

end Pool

variable [Clock ω τ]

theorem Engine.execute_returns (hp : plane.Legible settings) (hs : s.holdings.Sound plane settings)
    {e : Engine τ} {sub : Submission τ} (ho : Orderly ω (e.key sub) (Clock.now s.env.world : τ))
    (hc : ∀ c ∈ (e.execute plane.recorded (Runner.open plane.recorded settings) sub s).2.env.world.calls, c.Civil) :
    ∃ res, (e.execute plane.recorded (Runner.open plane.recorded settings) sub s).1 = .ok res := by
  obtain ⟨_, _, _, ⟨_, _, _, _, hres⟩ | ⟨i, rest, _, hcalls, hproceeds⟩⟩ := execute_cases hp hs e sub
  · exact hres ho
  rcases hout : (e.execute plane.recorded (Runner.open plane.recorded settings) sub s).1 with f | res
  · rw [hout] at hproceeds
    have hescaping := (hproceeds.escaping ho ho.1 f).mp rfl
    rw [escaping_of_civil fun c hmem => hc c (hcalls ▸ List.mem_append_right _ hmem)] at hescaping
    cases hescaping
  · exact ⟨res, rfl⟩

theorem history_released (hp : plane.Legible settings) (e : Engine τ) (env : Env ω τ)
    (ops : List (Operation ω τ)) {id : EnvironmentId}
    (h : id ∈ (history plane settings e env (ops ++ [.shutdown])).env.world.calls.filterMap created?) :
    id ∈ (history plane settings e env (ops ++ [.shutdown])).env.world.calls.filterMap removed? := by
  cases ho : settings.ownsEnvironment with
  | true =>
    have hledger := history_ledger hp ho e env (ops ++ [.shutdown])
    have hheld : id ∉ (history plane settings e env (ops ++ [.shutdown])).holdings.runners.flatMap
        (·.environment.toList) := by
      rw [hledger.mem_environments]
      rintro ⟨i, r, ⟨⟨k, hm⟩, _⟩, _⟩
      have hempty := history_shutdown hp e env ops
      exact absurd (hempty ▸ hm : (k, i) ∈ []) List.not_mem_nil
    have hcount := hledger.environments id
    rw [List.count_eq_zero_of_not_mem hheld, Nat.add_zero] at hcount
    exact List.count_pos_iff.mp (hcount ▸ List.count_pos_iff.mpr h)
  | false =>
    have hkept := (Runner.attached_conforms plane ho).history e env (ops ++ [.shutdown])
    obtain ⟨c, hc, hid⟩ := List.mem_filterMap.mp h
    have hop := (hkept.calls c hc).1
    cases c <;> simp [PlaneCall.op, created?] at hop hid

end Playpen
