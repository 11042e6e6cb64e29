import Mathlib.Data.List.Induction
import Mathlib.Data.List.Infix
import Playpen.Proofs.Plane.Scripted
import Playpen.Proofs.Pool.Ownership

namespace Playpen.Threads

open Value (sameKey_comm sameKey_trans sameKey_self)

deriving instance DecidableEq for Phase

variable {ω τ : Type}

def Shared.Live (s : Shared ω τ) (k : SessionKey) (i : Nat) : Prop := s.IsFor i k ∧ i ∉ s.closings

namespace State

def Builds (s : State ω τ) (t : Nat) (k : SessionKey) : Prop :=
  ∃ k' g, s.threads[t]? = some (.building k' g) ∧ k'.sameKey k = true

def Closes (s : State ω τ) (t : Nat) (k : SessionKey) : Prop :=
  ∃ k' g i, s.threads[t]? = some (.closing k' g i) ∧ s.IsFor i k

end State

namespace Phase

def found? : Phase τ → Option Nat
  | .unlocking _ _ (.ok r) | .leaving _ _ (.ok r) | .returning _ (.ok r) => r
  | _ => none

def acquires : Phase τ → Bool
  | .looking task _ | .entering task _ | .waiting task _ _ | .checking task _ _ => task = .acquire
  | .announcing .. | .building .. | .registering .. => true
  | .unlocking _ _ (.ok r) | .leaving _ _ (.ok r) | .returning _ (.ok r) => r.isSome
  | .unlocking _ _ (.error _) | .leaving _ _ (.error _) | .returning _ (.error _) => true
  | .idle | .retiring .. | .closing .. => false

end Phase

theorem lookUp_register {key : SessionKey} {i : Nat} {l : List (SessionKey × Nat)}
    (hk : key.isKey = true) : key.lookUp (register key i l) = some i := by
  induction l with
  | nil => simp [register, Value.lookUp, sameKey_self hk]
  | cons e l ih =>
    obtain ⟨k, j⟩ := e
    by_cases h : k.sameKey key = true <;> simp [register, Value.lookUp, h, ih]

section

variable {plane : ControlPlane ω τ} {factory : RunnerFactory ω τ}

theorem announcing_of_advance {p : Phase τ} {s s' : Shared ω τ} {k : SessionKey} {g : Nat}
    (h : advance plane factory p s = some (.building k g, s')) : p = .announcing k g := by
  cases p with
  | announcing key g =>
    simp only [advance] at h
    split at h <;> cases h
    rfl
  | looking task key => cases task <;> simp only [advance] at h <;> split at h <;> cases h
  | checking task key g => cases task <;> simp only [advance] at h <;> split at h <;> cases h
  | building key g => simp only [advance] at h; split at h <;> cases h
  | waiting task key g => simp [advance] at h
  | idle | entering | registering | retiring | closing | unlocking | leaving | returning => cases h

theorem found_of_advance {p p' : Phase τ} {s s' : Shared ω τ} {k : SessionKey}
    (h : advance plane factory p s = some (p', s')) (hp : p.acquires = true)
    (hk : p.key? = some k) (hkey : k.isKey = true) :
    p' = .idle ∨ p'.acquires = true ∧ ∀ i, p'.found? = some i → p.found? = some i ∨
      k.lookUp s.registry = some i ∨ k.lookUp s'.registry = some i := by
  -- A runner is brought from the registry or put there, so only looking, checking and registering find one.
  cases p with
  | idle => cases h
  | looking task key =>
    obtain rfl : task = .acquire := by simpa [Phase.acquires] using hp
    cases hk
    simp only [advance] at h
    split at h <;> rename_i hl <;> cases h
    · exact .inr ⟨rfl, fun i hi => .inr (.inl (hi ▸ hl))⟩
    · exact .inr ⟨rfl, fun i hi => by cases hi⟩
  | entering task key =>
    cases h
    exact .inr ⟨hp, fun i hi => by cases hi⟩
  | waiting task key g =>
    simp only [advance, Option.ite_none_left_eq_some, Option.some.injEq, Prod.mk.injEq] at h
    obtain ⟨_, rfl, _⟩ := h
    exact .inr ⟨hp, fun i hi => by cases hi⟩
  | checking task key g =>
    obtain rfl : task = .acquire := by simpa [Phase.acquires] using hp
    cases hk
    simp only [advance] at h
    split at h <;> rename_i hl <;> cases h
    · exact .inr ⟨rfl, fun i hi => .inr (.inl (hi ▸ hl))⟩
    · exact .inr ⟨rfl, fun i hi => by cases hi⟩
  | announcing key g =>
    simp only [advance] at h
    split at h <;> cases h <;> exact .inr ⟨rfl, fun i hi => by cases hi⟩
  | building key g =>
    simp only [advance] at h
    split at h <;> cases h <;> exact .inr ⟨rfl, fun i hi => by cases hi⟩
  | registering key g j =>
    cases hk
    cases h
    exact .inr ⟨rfl, fun i hi => by cases hi; exact .inr (.inr (lookUp_register hkey))⟩
  | retiring key g i => cases hp
  | closing key g i => cases hp
  | unlocking key g reply =>
    cases h
    exact .inr ⟨by cases reply <;> exact hp, fun i hi => .inl (by cases reply <;> exact hi)⟩
  | leaving key g reply =>
    simp only [advance, Option.some.injEq, Prod.mk.injEq] at h
    obtain ⟨rfl, _⟩ := h
    cases (s.leave key g).1 with
    | error e => exact .inr ⟨rfl, fun i hi => by cases hi⟩
    | ok _ => exact .inr ⟨by cases reply <;> exact hp, fun i hi => .inl (by cases reply <;> exact hi)⟩
  | returning key reply => cases h; exact .inl rfl

theorem phase_of_move (plane : ControlPlane ω τ) (factory : RunnerFactory ω τ) (m : Move ω τ)
    {s : State ω τ} {t : Nat} {p : Phase τ} (ht : s.threads[t]? = some p) :
    (move plane factory s m).threads[t]? = some p ∨
      (∃ p', advance plane factory p s.toShared = some (p', (move plane factory s m).toShared) ∧
        (move plane factory s m).threads[t]? = some p') ∨
      p = .idle ∧ ∃ task key, (move plane factory s m).threads[t]? = some (.looking task key) := by
  have hlt : t < s.threads.length := (List.getElem?_eq_some_iff.mp ht).1
  cases m with
  | outside env runners => exact .inl ht
  | begin u task key =>
    simp only [move]
    split
    · rename_i hu
      split
      · by_cases htu : u = t
        · subst htu
          cases hu.symm.trans ht
          exact .inr (.inr ⟨rfl, task, key, by simp [hlt]⟩)
        · exact .inl (by simpa [List.getElem?_set_ne htu] using ht)
      · exact .inl ht
    · exact .inl ht
  | advance u =>
    simp only [move]
    split
    · rename_i p' shared hm
      obtain ⟨q, hq, hadv⟩ := Option.bind_eq_some_iff.mp hm
      by_cases htu : u = t
      · subst htu
        cases hq.symm.trans ht
        exact .inr (.inl ⟨p', hadv, by simp [hlt]⟩)
      · exact .inl (by simpa [List.getElem?_set_ne htu] using ht)
    · exact .inl ht

theorem after_append (l m : List (Move ω τ)) (s : State ω τ) :
    after plane factory (l ++ m) s = after plane factory m (after plane factory l s) :=
  List.foldl_append

theorem length_move (plane : ControlPlane ω τ) (factory : RunnerFactory ω τ) (s : State ω τ) (m : Move ω τ) :
    (move plane factory s m).threads.length = s.threads.length := by
  cases m with
  | outside env runners => rfl
  | begin t task key =>
    simp only [move]
    split
    · split <;> simp
    · rfl
  | advance t =>
    simp only [move]
    split <;> simp

theorem found_during_call {s : State ω τ} (hs : Guarded s) {t : Nat} {k : SessionKey}
    (ht : s.threads[t]? = some (.looking .acquire k)) (moves : List (Move ω τ))
    (hcall : ∀ l, l <+: moves → (after plane factory l s).threads[t]? ≠ some .idle) :
    ∃ p, (after plane factory moves s).threads[t]? = some p ∧ p.acquires = true ∧
      p.key? = some k ∧ ∀ i, p.found? = some i →
        ∃ l, l <+: moves ∧ k.lookUp (after plane factory l s).registry = some i := by
  have hkey : k.isKey = true := hs.proper ht rfl
  induction moves using List.reverseRecOn with
  | nil => exact ⟨_, ht, rfl, rfl, fun i hi => by cases hi⟩
  | append_singleton moves m ih =>
    obtain ⟨p, hp, hacq, hpk, hfound⟩ :=
      ih fun l hl => hcall l (hl.trans (List.prefix_append _ _))
    have hlast : after plane factory (moves ++ [m]) s =
        move plane factory (after plane factory moves s) m := after_append _ _ _
    have extend : ∀ {i}, (∃ l, l <+: moves ∧ k.lookUp (after plane factory l s).registry = some i) →
        ∃ l, l <+: moves ++ [m] ∧ k.lookUp (after plane factory l s).registry = some i := by
      rintro i ⟨l, hl, hi⟩
      exact ⟨l, hl.trans (List.prefix_append _ _), hi⟩
    rcases phase_of_move plane factory m hp with
      hsame | ⟨p', hadv, hp'⟩ | ⟨rfl, _⟩
    · exact ⟨p, hlast ▸ hsame, hacq, hpk, fun i hi => extend (hfound i hi)⟩
    · have hidle : p' ≠ .idle := by
        rintro rfl
        exact hcall _ (List.prefix_refl _) (hlast ▸ hp')
      have hk' := (key?_of_advance hadv).resolve_left hidle
      obtain ⟨hacq', hnew⟩ := (found_of_advance hadv hacq hpk hkey).resolve_left hidle
      refine ⟨p', hlast ▸ hp', hacq', hk'.trans hpk, fun i hi => ?_⟩
      rcases hnew i hi with hold | hnow | hnext
      · exact extend (hfound i hold)
      · exact ⟨moves, List.prefix_append _ _, hnow⟩
      · exact ⟨moves ++ [m], List.prefix_refl _, hlast ▸ hnext⟩
    · cases hacq

theorem live_unique {s : State ω τ} (hg : Guarded s) (ho : Owned s) {k : SessionKey} {i j : Nat}
    (hi : s.Live k i) (hj : s.Live k j) : i = j := by
  -- A thread with a runner in its hands keeps the key out of the registry.
  have unregistered : ∀ {a b : Nat} {k' : SessionKey} {t : Nat} {p : Phase τ} {k'' : SessionKey},
      s.IsFor a k → s.IsFor b k → (k', a) ∈ s.registry → s.threads[t]? = some p →
      p.hand? = some (k'', b) → False := by
    intro a b k' t p k'' ha hb hreg hp hh
    have hk' : k'.sameKey k'' = true :=
      sameKey_trans ((ho.registered hreg).1.same ha) (hb.same ((ho.fits hp).held hh).1)
    have habs := Value.lookUp_eq_none_iff.mp ((ho.fits hp).vacant (Phase.vacant?_of_hand? hh)) _ hreg
    simp [hk'] at habs
  rcases ho.kept hi.1.lt hi.2 with ⟨k₁, h₁⟩ | ⟨t, p, k₁, hp, hh₁⟩ <;>
    rcases ho.kept hj.1.lt hj.2 with ⟨k₂, h₂⟩ | ⟨u, q, k₂, hq, hh₂⟩
  · have hl₁ := ho.keyed.lookUp_of_mem h₁ ((ho.registered h₁).1.same hi.1)
    have hl₂ := ho.keyed.lookUp_of_mem h₂ ((ho.registered h₂).1.same hj.1)
    exact Option.some.inj (hl₁.symm.trans hl₂)
  · exact (unregistered hi.1 hj.1 h₁ hq hh₂).elim
  · exact (unregistered hj.1 hi.1 h₂ hp hh₁).elim
  · obtain ⟨hpo, g, hpg⟩ := Phase.holds_of_vacant? (Phase.vacant?_of_hand? hh₁)
    obtain ⟨hqo, g', hqg⟩ := Phase.holds_of_vacant? (Phase.vacant?_of_hand? hh₂)
    have hk : k₁.sameKey k₂ = true :=
      sameKey_trans (((ho.fits hp).held hh₁).1.same hi.1) (hj.1.same ((ho.fits hq).held hh₂).1)
    obtain rfl := hg.exclusive hp hq hpg hqg hpo hqo hk
    cases hp.symm.trans hq
    have := hh₁.symm.trans hh₂
    simp only [Option.some.injEq, Prod.mk.injEq] at this
    exact this.2

theorem building_begins_alone {s : State ω τ} (hg : Guarded s) (ho : Owned s) {m : Move ω τ}
    {t : Nat} {k : SessionKey} (hn : ¬ s.Builds t k) (hb : (move plane factory s m).Builds t k)
    (u : Nat) : ¬ s.Builds u k ∧ ¬ s.Closes u k := by
  obtain ⟨k', g, ht', hkk⟩ := hb
  have hlt : t < s.threads.length := by
    rw [← length_move plane factory s m]
    exact (List.getElem?_eq_some_iff.mp ht').1
  have ht : s.threads[t]? = some (.announcing k' g) := by
    have hget := List.getElem?_eq_getElem hlt
    rcases phase_of_move plane factory m hget with
      hsame | ⟨p', hadv, hp'⟩ | ⟨_, task, key, hl⟩
    · exact absurd ⟨k', g, hget.trans (hsame.symm.trans ht'), hkk⟩ hn
    · cases hp'.symm.trans ht'
      rw [hget, announcing_of_advance hadv]
    · cases hl.symm.trans ht'
  constructor
  · rintro ⟨j, g', hu, hj⟩
    have := hg.exclusive ht hu rfl rfl rfl rfl (sameKey_trans hkk (sameKey_comm.trans hj))
    subst this
    cases ht.symm.trans hu
  · rintro ⟨j, g', i, hu, hi⟩
    have hj : k'.sameKey j = true := sameKey_trans hkk (hi.same ((ho.fits hu).closing rfl))
    have := hg.exclusive ht hu rfl rfl rfl rfl hj
    subst this
    cases ht.symm.trans hu

end

variable (plane : ControlPlane ω τ) (factory : RunnerFactory ω τ)

/-- However the steps of any number of threads are ordered, from a fresh pool on: a key has one live runner
at most; a factory call begins while nobody else builds or closes for its key; a registered runner has
never been closed by the pool, and none is closed twice; a call that acquires and does not fail brings a
runner that was registered under its key at some moment of the call. -/
theorem pool_exclusive (env : Env ω τ) (n : Nat) (moves : List (Move ω τ)) :
    let s := after plane factory moves (State.fresh env n)
    (∀ k i j, s.Live k i → s.Live k j → i = j) ∧
    (∀ m t k, ¬ s.Builds t k → (move plane factory s m).Builds t k →
      ∀ u, ¬ s.Builds u k ∧ ¬ s.Closes u k) ∧
    (∀ k i, (k, i) ∈ s.registry → i ∉ s.closings) ∧
    s.closings.Nodup ∧
    (∀ (call : List (Move ω τ)) (t : Nat) (k k' : SessionKey) (r : Option Nat),
      s.threads[t]? = some (.looking .acquire k) →
      (∀ l, l <+: call → (after plane factory l s).threads[t]? ≠ some .idle) →
      (after plane factory call s).threads[t]? = some (.returning k' (.ok r)) →
      ∃ i l, r = some i ∧ l <+: call ∧ k.lookUp (after plane factory l s).registry = some i) := by
  intro s
  have hg : Guarded s := (Guarded.fresh env n).after moves
  have ho : Owned s := (Owned.fresh env n).after (Guarded.fresh env n) moves
  refine ⟨fun k i j hi hj => live_unique hg ho hi hj,
    fun m t k hn hb u => building_begins_alone hg ho hn hb u,
    fun k i hi => (ho.registered hi).2, ho.once, ?_⟩
  intro call t k k' r ht hcall hret
  obtain ⟨p, hp, hacq, _, hfound⟩ := found_during_call hg ht call hcall
  cases hp.symm.trans hret
  obtain ⟨i, rfl⟩ := Option.isSome_iff_exists.mp hacq
  obtain ⟨l, hl, hi⟩ := hfound i rfl
  exact ⟨i, l, rfl, hl, hi⟩

theorem pool_exclusive_contended :
    let factory := Runner.open Script.plane Script.settings
    let key : SessionKey := .text "default"
    let start := after Script.plane factory [.begin 0 .acquire key, .begin 1 .acquire key]
      (State.fresh { world := {} } 2)
    let call : List (Move Script Double) := [1, 1, 0, 0, 0, 1, 0, 0, 0, 0, 0, 1, 1, 1, 1].map .advance
    (after Script.plane factory call start).threads[1]? = some (.returning key (.ok (some 0))) ∧
      ∃ i l, some 0 = some i ∧ l <+: call ∧
        key.lookUp (after Script.plane factory l start).registry = some i := by
  intro factory key start call
  have hreturns : (after Script.plane factory call start).threads[1]? =
      some (.returning key (.ok (some 0))) := by
    decide +kernel
  have hbusy : ∀ l ∈ call.inits, (after Script.plane factory l start).threads[1]? ≠ some .idle := by
    decide +kernel
  refine ⟨hreturns, ?_⟩
  exact (pool_exclusive Script.plane factory { world := {} } 2 _).2.2.2.2 call 1 key key (some 0)
    (by decide +kernel) (fun l hl => hbusy l ((List.mem_inits l call).mpr hl)) hreturns

end Playpen.Threads
