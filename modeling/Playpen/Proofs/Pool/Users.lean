import Playpen.Proofs.Pool.Exclusion

namespace Playpen.Threads

open Value (Keyed sameKey_iff sameKey_comm sameKey_trans)

variable {ω τ : Type}

def Phase.isWithin (key : SessionKey) (p : Phase τ) : Bool := p.guard?.any fun e => e.1.sameKey key

theorem Phase.isWithin_iff {key : SessionKey} {p : Phase τ} :
    p.isWithin key = true ↔ ∃ k g, p.guard? = some (k, g) ∧ k.sameKey key = true := by
  simp [isWithin, Option.any_eq_true]

section

variable {s : State ω τ} {key : SessionKey} {p : Phase τ} {g : Nat}

theorem Guarded.lookUp_of_isWithin (h : Guarded s) (hp : p ∈ s.threads) (hin : p.isWithin key = true) :
    ∃ g, key.lookUp s.current = some g ∧ p.uses g = true := by
  obtain ⟨t, ht⟩ := List.getElem?_of_mem hp
  obtain ⟨k, g, hg, hk⟩ := Phase.isWithin_iff.mp hin
  refine ⟨g, ?_, Phase.uses_of_guard? hg⟩
  rw [← h.inside ht hg]
  exact Value.lookUp_congr (sameKey_iff.mp hk).2.symm

theorem Guarded.isWithin_of_uses (h : Guarded s) (hl : key.lookUp s.current = some g) (hp : p ∈ s.threads)
    (hu : p.uses g = true) : p.isWithin key = true := by
  obtain ⟨t, ht⟩ := List.getElem?_of_mem hp
  obtain ⟨k, hg⟩ := Phase.guard?_of_uses hu
  obtain ⟨k₁, hm₁, hk₁⟩ := Value.mem_of_lookUp hl
  obtain ⟨k₂, hm₂, hk₂⟩ := Value.mem_of_lookUp (h.inside ht hg)
  -- No guard stands for two keys.
  obtain ⟨rfl, -⟩ := Prod.mk.inj (List.inj_on_of_nodup_map h.numbers hm₁ hm₂ rfl)
  exact Phase.isWithin_iff.mpr ⟨k, g, hg, sameKey_trans (sameKey_comm.trans hk₂) hk₁⟩

theorem Guarded.isWithin_eq_uses (h : Guarded s) (hl : key.lookUp s.current = some g)
    (hp : p ∈ s.threads) : p.isWithin key = p.uses g := by
  rw [Bool.eq_iff_iff]
  refine ⟨fun hin => ?_, h.isWithin_of_uses hl hp⟩
  obtain ⟨g', hl', hu⟩ := h.lookUp_of_isWithin hp hin
  cases hl.symm.trans hl'
  exact hu

theorem Guarded.users_eq (h : Guarded s) (hl : key.lookUp s.current = some g) :
    s.users g = s.threads.countP (·.isWithin key) := by
  obtain ⟨k, hm, _⟩ := Value.mem_of_lookUp hl
  rw [h.users hm]
  exact List.countP_congr fun p hp => by rw [h.isWithin_eq_uses hl hp]

theorem Guarded.exists_user (h : Guarded s) {k : SessionKey} (hm : (k, g) ∈ s.current) :
    ∃ p ∈ s.threads, p.uses g = true := by
  rw [← List.countP_pos_iff, ← h.users hm]
  exact h.used hm

theorem Guarded.isSome_iff (h : Guarded s) :
    (key.lookUp s.current).isSome = true ↔ ∃ p ∈ s.threads, p.isWithin key = true := by
  constructor
  · intro hsome
    obtain ⟨g, hl⟩ := Option.isSome_iff_exists.mp hsome
    obtain ⟨k, hm, _⟩ := Value.mem_of_lookUp hl
    obtain ⟨p, hp, hu⟩ := h.exists_user hm
    exact ⟨p, hp, h.isWithin_of_uses hl hp hu⟩
  · rintro ⟨p, hp, hin⟩
    obtain ⟨g, hl, _⟩ := h.lookUp_of_isWithin hp hin
    exact Option.isSome_iff_exists.mpr ⟨g, hl⟩

theorem Guarded.one_holder (h : Guarded s) (hl : key.lookUp s.current = some g) :
    s.threads.countP (fun p => p.holds && p.isWithin key) ≤ if s.isTaken g then 1 else 0 := by
  have hcount : s.threads.countP (fun p => p.holds && p.isWithin key) =
      s.threads.countP (Phase.holdsLock g) := by
    apply List.countP_congr
    intro p hp
    rw [h.isWithin_eq_uses hl hp, Phase.holdsLock]
  rw [hcount]
  exact h.lock g

theorem Guarded.leave_ok (h : Guarded s) {t : Nat} {reply : Reply τ}
    (ht : s.threads[t]? = some (.leaving key g reply)) : (s.leave key g).1 = .ok () := by
  have hl : key.lookUp s.current = some g := h.inside ht rfl
  have hl' : key.lookUp (s.setGuard g fun c => { c with users := c.users - 1 }).current = some g := hl
  unfold Shared.leave
  dsimp only
  split
  · rfl
  · rw [hl']

theorem Guarded.current_eq_nil (h : Guarded s) (hn : ∀ p ∈ s.threads, p.guard? = none) :
    s.current = [] := by
  rw [List.eq_nil_iff_forall_not_mem]
  rintro ⟨k, g⟩ hm
  obtain ⟨p, hp, hu⟩ := h.exists_user hm
  obtain ⟨k', hg⟩ := Phase.guard?_of_uses hu
  cases (hn p hp).symm.trans hg

end

variable (plane : ControlPlane ω τ) (factory : RunnerFactory ω τ)

/-- However the steps of any number of threads are ordered, from a fresh pool on: a key has an entry
exactly when some thread is within its guard. The guard of the entry is the one that all these threads
have, it counts them, and one of them at most holds its lock. So whoever leaves finds the entry, and no
entry is left when nobody is within. -/
theorem guards_counted (env : Env ω τ) (n : Nat) (moves : List (Move ω τ)) :
    let s := after plane factory moves (State.fresh env n)
    (∀ key, (key.lookUp s.current).isSome = true ↔ ∃ p ∈ s.threads, p.isWithin key = true) ∧
    (∀ key g, key.lookUp s.current = some g →
      s.users g = s.threads.countP (·.isWithin key) ∧
      (∀ p ∈ s.threads, p.isWithin key = true → p.uses g = true) ∧
      s.threads.countP (fun p => p.holds && p.isWithin key) ≤ 1) ∧
    (∀ (t : Nat) (key : SessionKey) (g : Nat) (reply : Reply τ),
      s.threads[t]? = some (.leaving key g reply) → (s.leave key g).1 = .ok ()) ∧
    ((∀ p ∈ s.threads, p.guard? = none) → s.current = []) := by
  intro s
  have hg : Guarded s := (Guarded.fresh env n).after moves
  refine ⟨fun key => hg.isSome_iff, fun key g hl => ⟨hg.users_eq hl, ?_, ?_⟩,
    fun t key g reply ht => hg.leave_ok ht, hg.current_eq_nil⟩
  · intro p hp hin
    rwa [← hg.isWithin_eq_uses hl hp]
  · have := hg.one_holder hl
    split at this <;> omega

theorem guards_counted_contended :
    let factory := Runner.open Script.plane Script.settings
    let key : SessionKey := .text "default"
    let begun : List (Move Script Double) := [.begin 0 .acquire key, .begin 1 .acquire key]
    let meet := begun ++ [1, 1, 0, 0, 0, 1].map Move.advance
    let part := meet ++ [0, 0, 0, 0, 0, 0, 1, 1, 1].map Move.advance
    let s := after Script.plane factory meet (State.fresh { world := {} } 2)
    let last := after Script.plane factory part (State.fresh { world := {} } 2)
    (key.lookUp s.current = some 0 ∧ s.users 0 = 2 ∧ s.users 0 = s.threads.countP (·.isWithin key)) ∧
      last.threads[1]? = some (.leaving key 0 (.ok (some 0))) ∧ (last.leave key 0).1 = .ok () ∧
      (last.leave key 0).2.current = [] := by
  intro factory key begun meet part s last
  -- As let-bound values, `s` and `last` would be run again wherever the types are compared.
  subst s last
  obtain ⟨-, hcounted, -⟩ := guards_counted Script.plane factory { world := {} } 2 meet
  obtain ⟨-, -, hleave, -⟩ := guards_counted Script.plane factory { world := {} } 2 part
  have hentry : key.lookUp
      (after Script.plane factory meet (State.fresh { world := {} } 2)).current = some 0 := by
    decide +kernel
  have hleaving : (after Script.plane factory part (State.fresh { world := {} } 2)).threads[1]? =
      some (.leaving key 0 (.ok (some 0))) := by
    decide +kernel
  exact ⟨⟨hentry, by decide +kernel, (hcounted key 0 hentry).1⟩, hleaving,
    hleave 1 key 0 _ hleaving, by decide +kernel⟩

end Playpen.Threads
