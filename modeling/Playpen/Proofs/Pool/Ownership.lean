import Playpen.Proofs.Pool.Guards

namespace Playpen.Threads

open Value (Keyed sameKey_iff sameKey_comm sameKey_trans sameKey_self)

variable {ω τ : Type}

namespace Phase

def vacant? : Phase τ → Option SessionKey
  | .announcing k _ | .building k _ | .registering k _ _ | .retiring k _ _ => some k
  | _ => none

def hand? : Phase τ → Option (SessionKey × Nat)
  | .registering k _ i | .retiring k _ i => some (k, i)
  | _ => none

def closing? : Phase τ → Option (SessionKey × Nat)
  | .closing k _ i => some (k, i)
  | _ => none

theorem holds_of_vacant? {p : Phase τ} {k : SessionKey} (h : p.vacant? = some k) :
    p.holds = true ∧ ∃ g, p.guard? = some (k, g) := by
  cases p <;> simp_all [vacant?, holds, guard?]

theorem vacant?_of_hand? {p : Phase τ} {k : SessionKey} {i : Nat} (h : p.hand? = some (k, i)) :
    p.vacant? = some k := by
  cases p <;> simp_all [hand?, vacant?]

end Phase

structure SameRunners (s s' : Shared ω τ) : Prop where
  registry : s'.registry = s.registry
  builtFor : s'.builtFor = s.builtFor
  closings : s'.closings = s.closings
  count : s'.runners.length = s.runners.length

theorem SameRunners.refl (s : Shared ω τ) : SameRunners s s := ⟨rfl, rfl, rfl, rfl⟩

inductive RunnerStep (s s' : Shared ω τ) : Phase τ → Phase τ → Prop
  | keep {p p'} (hs : SameRunners s s')
      (hv : ∀ k, p'.vacant? = some k → p.vacant? = some k) (hh : p.hand? = none)
      (hh' : p'.hand? = none) (hcl : p'.closing? = none) : RunnerStep s s' p p'
  | miss {key g} (absent : key.lookUp s.registry = none) (hs : s' = s) :
      RunnerStep s s' (.checking .acquire key g) (.announcing key g)
  | build {key g} (hr : s'.registry = s.registry) (hb : s'.builtFor = s.builtFor ++ [key])
      (hc : s'.closings = s.closings) (hn : s'.runners.length = s.runners.length + 1) :
      RunnerStep s s' (.building key g) (.registering key g s.runners.length)
  | register {key g i reply} (hr : s'.registry = Threads.register key i s.registry)
      (hb : s'.builtFor = s.builtFor) (hc : s'.closings = s.closings)
      (hn : s'.runners = s.runners) :
      RunnerStep s s' (.registering key g i) (.unlocking key g reply)
  | unregister {key g i} (present : key.lookUp s.registry = some i)
      (hr : s'.registry = s.registry.filter (!·.1.sameKey key)) (hb : s'.builtFor = s.builtFor)
      (hc : s'.closings = s.closings) (hn : s'.runners = s.runners) :
      RunnerStep s s' (.checking .release key g) (.retiring key g i)
  | close {key g i} (hr : s'.registry = s.registry) (hb : s'.builtFor = s.builtFor)
      (hc : s'.closings = s.closings ++ [i]) (hn : s'.runners = s.runners) :
      RunnerStep s s' (.retiring key g i) (.closing key g i)

theorem act_runners {α : Type} {x : SiteAct ω τ α} {s : Shared ω τ}
    (h : (s.act x).2.runners.length = s.runners.length) : SameRunners s (s.act x).2 :=
  ⟨rfl, rfl, rfl, h⟩

theorem enter_runners (s : Shared ω τ) (key : SessionKey) : SameRunners s (s.enter key).2 := by
  unfold Shared.enter
  split <;> exact ⟨rfl, rfl, rfl, rfl⟩

theorem leave_runners (s : Shared ω τ) (key : SessionKey) (g : Nat) :
    SameRunners s (s.leave key g).2 := by
  unfold Shared.leave
  simp only
  split
  · exact ⟨rfl, rfl, rfl, rfl⟩
  · split <;> exact ⟨rfl, rfl, rfl, rfl⟩

theorem announcement_runners (key : SessionKey) (s : Shared ω τ) :
    (s.act (announcement key)).2.runners = s.runners := rfl

theorem construction_runners (factory : RunnerFactory ω τ) (key : SessionKey) (s : Shared ω τ) :
    (∃ e s', s.act (construction factory key) = (.error e, s') ∧ SameRunners s s') ∨
      ∃ s', s.act (construction factory key) = (.ok s.runners.length, s') ∧
        s'.registry = s.registry ∧ s'.builtFor = s.builtFor ∧ s'.closings = s.closings ∧
        s'.runners.length = s.runners.length + 1 := by
  cases h : factory key s.env with
  | mk r env =>
    cases r with
    | error e =>
      refine .inl ⟨e, { s with env }, ?_, rfl, rfl, rfl, rfl⟩
      simp [Shared.act, construction, bind, Act.bind, Site.effect, Act.within, Shared.site, h]
    | ok r =>
      refine .inr ⟨{ s with env, runners := s.runners ++ [r] }, ?_, rfl, rfl, rfl, by simp⟩
      simp [Shared.act, construction, bind, Act.bind, Site.effect, Act.within, Shared.site, h,
        Site.adopt]

theorem retirement_runners (plane : ControlPlane ω τ) (key : SessionKey) (i : Nat)
    (s : Shared ω τ) : (s.act (retirement plane key i)).2.runners.length = s.runners.length := by
  have hw : (Site.withRunner i (Runner.close plane) s.site).2.runners.length = s.runners.length := by
    unfold Site.withRunner
    split <;> simp [Shared.site]
  simp only [Shared.act, retirement, bind, Act.bind]
  rw [← hw]
  split <;> rename_i h <;> rw [h]
  rfl

theorem RunnerStep.rest {p p' : Phase τ} {s s' : Shared ω τ} (hs : SameRunners s s')
    (hh : p.hand? = none) (hv : p'.vacant? = none) (hcl : p'.closing? = none) : RunnerStep s s' p p' := by
  refine .keep hs (by simp [hv]) hh (Option.eq_none_iff_forall_ne_some.mpr fun ki hki => ?_) hcl
  simp [Phase.vacant?_of_hand? hki] at hv

variable {plane : ControlPlane ω τ} {factory : RunnerFactory ω τ}

theorem runnerStep_of_advance {p p' : Phase τ} {s s' : Shared ω τ}
    (h : advance plane factory p s = some (p', s')) : RunnerStep s s' p p' := by
  -- Most phases leave runners and registry alone; each of the others has its own kind of step.
  cases p with
  | idle => cases h
  | looking task key =>
    cases task <;> simp only [advance] at h <;> split at h <;> cases h <;>
      exact .rest ⟨rfl, rfl, rfl, rfl⟩ rfl rfl rfl
  | entering task key =>
    simp only [advance, Option.some.injEq, Prod.mk.injEq] at h
    obtain ⟨rfl, rfl⟩ := h
    exact .rest (enter_runners s key) rfl rfl rfl
  | waiting task key g =>
    simp only [advance, Option.ite_none_left_eq_some, Option.some.injEq, Prod.mk.injEq] at h
    obtain ⟨_, rfl, rfl⟩ := h
    exact .rest ⟨rfl, rfl, rfl, rfl⟩ rfl rfl rfl
  | checking task key g =>
    cases task <;> simp only [advance] at h <;> split at h <;> rename_i hl <;> cases h
    · exact .rest ⟨rfl, rfl, rfl, rfl⟩ rfl rfl rfl
    · exact .miss hl rfl
    · exact .unregister hl rfl rfl rfl rfl
    · exact .rest ⟨rfl, rfl, rfl, rfl⟩ rfl rfl rfl
  | announcing key g =>
    simp only [advance] at h
    have hs := act_runners (congrArg List.length (announcement_runners key s))
    split at h <;> rename_i ha <;> cases h <;> rw [ha] at hs
    · exact .keep hs (fun _ hk => hk) rfl rfl rfl
    · exact .rest hs rfl rfl rfl
  | building key g =>
    simp only [advance] at h
    rcases construction_runners factory key s with ⟨e, s₁, he, hs⟩ | ⟨s₁, he, hr, hb, hc, hn⟩ <;>
      rw [he] at h <;> cases h
    · exact .rest hs rfl rfl rfl
    · exact .build hr (congrArg (· ++ [key]) hb) hc hn
  | registering key g i => cases h; exact .register rfl rfl rfl rfl
  | retiring key g i => cases h; exact .close rfl rfl rfl rfl
  | closing key g i =>
    cases h
    exact .rest (act_runners (retirement_runners plane key i s)) rfl rfl rfl
  | unlocking key g reply =>
    cases h
    exact .rest ⟨rfl, rfl, rfl, rfl⟩ rfl rfl rfl
  | leaving key g reply =>
    simp only [advance, Option.some.injEq, Prod.mk.injEq] at h
    obtain ⟨rfl, rfl⟩ := h
    exact .rest (leave_runners s key g) rfl rfl rfl
  | returning key reply =>
    cases h
    exact .rest ⟨rfl, rfl, rfl, rfl⟩ rfl rfl rfl

def Shared.IsFor (s : Shared ω τ) (i : Nat) (k : SessionKey) : Prop :=
  ∃ k', s.builtFor[i]? = some k' ∧ k'.sameKey k = true

theorem Shared.IsFor.same {s : Shared ω τ} {i : Nat} {j k : SessionKey} (hj : s.IsFor i j)
    (hk : s.IsFor i k) : j.sameKey k = true := by
  obtain ⟨j', hj', hjj⟩ := hj
  obtain ⟨k', hk', hkk⟩ := hk
  cases hj'.symm.trans hk'
  exact sameKey_trans (sameKey_comm.trans hjj) hkk

theorem Shared.IsFor.of_same {s : Shared ω τ} {i : Nat} {j k : SessionKey} (hj : s.IsFor i j)
    (hjk : j.sameKey k = true) : s.IsFor i k := by
  obtain ⟨j', hj', hjj⟩ := hj
  exact ⟨j', hj', sameKey_trans hjj hjk⟩

theorem Shared.IsFor.lt {s : Shared ω τ} {i : Nat} {k : SessionKey} (h : s.IsFor i k) :
    i < s.builtFor.length := by
  obtain ⟨_, h, _⟩ := h
  exact (List.getElem?_eq_some_iff.mp h).1

theorem Shared.IsFor.append {s s' : Shared ω τ} {i : Nat} {k : SessionKey}
    (h : s.IsFor i k) {l : List SessionKey} (hb : s'.builtFor = s.builtFor ++ l) : s'.IsFor i k := by
  obtain ⟨k', hk', hkk⟩ := h
  refine ⟨k', ?_, hkk⟩
  rw [hb, List.getElem?_append_left (List.getElem?_eq_some_iff.mp hk').1]
  exact hk'

theorem Shared.IsFor.congr {s s' : Shared ω τ} {i : Nat} {k : SessionKey} (h : s.IsFor i k)
    (hb : s'.builtFor = s.builtFor) : s'.IsFor i k :=
  h.append (l := []) (by simpa using hb)

structure Fits (s : Shared ω τ) (p : Phase τ) : Prop where
  held {k : SessionKey} {i : Nat} : p.hand? = some (k, i) → s.IsFor i k ∧ i ∉ s.closings
  vacant {k : SessionKey} : p.vacant? = some k → k.lookUp s.registry = none
  closing {k : SessionKey} {i : Nat} : p.closing? = some (k, i) → s.IsFor i k

theorem Fits.of_none {s : Shared ω τ} {p : Phase τ} (hh : p.hand? = none) (hv : p.vacant? = none)
    (hc : p.closing? = none) : Fits s p :=
  ⟨by simp [hh], by simp [hv], by simp [hc]⟩

theorem Fits.carry {s s' : Shared ω τ} {p : Phase τ} (h : Fits s p)
    (hb : ∀ {i k}, s.IsFor i k → s'.IsFor i k) (hc : ∀ k i, p.hand? = some (k, i) → i ∉ s'.closings)
    (hr : ∀ k, p.vacant? = some k → k.lookUp s'.registry = none) : Fits s' p where
  held hp := ⟨hb (h.held hp).1, hc _ _ hp⟩
  vacant hp := hr _ hp
  closing hp := hb (h.closing hp)

theorem Fits.same {s s' : Shared ω τ} {p : Phase τ} (h : Fits s p)
    (hb : ∀ {i k}, s.IsFor i k → s'.IsFor i k) (hc : s'.closings = s.closings)
    (hr : s'.registry = s.registry) : Fits s' p :=
  h.carry hb (fun _ _ hp => hc ▸ (h.held hp).2) fun _ hp => hr ▸ h.vacant hp

theorem Fits.set {s : Shared ω τ} {threads : List (Phase τ)} {t : Nat} {p : Phase τ} (hp : Fits s p)
    (hrest : ∀ {u q}, u ≠ t → threads[u]? = some q → Fits s q) {u : Nat} {q : Phase τ}
    (hq : (threads.set t p)[u]? = some q) : Fits s q := by
  rcases getElem?_of_set hq with ⟨rfl, rfl⟩ | ⟨hne, hq⟩
  · exact hp
  · exact hrest hne hq

def State.Kept (s : State ω τ) (i : Nat) : Prop :=
  (∃ k, (k, i) ∈ s.registry) ∨
    ∃ (t : Nat) (p : Phase τ) (k : SessionKey), s.threads[t]? = some p ∧ p.hand? = some (k, i)

theorem State.Kept.set {s : State ω τ} {s' : Shared ω τ} {t i : Nat} {p p' : Phase τ} (h : s.Kept i)
    (ht : s.threads[t]? = some p)
    (hr : ∀ k, (k, i) ∈ s.registry → (∃ k, (k, i) ∈ s'.registry) ∨ ∃ k, p'.hand? = some (k, i))
    (hp : ∀ k, p.hand? = some (k, i) → (∃ k, (k, i) ∈ s'.registry) ∨ ∃ k, p'.hand? = some (k, i)) :
    State.Kept { toShared := s', threads := s.threads.set t p' } i := by
  have hlen : t < s.threads.length := (List.getElem?_eq_some_iff.mp ht).1
  have here : ((∃ k, (k, i) ∈ s'.registry) ∨ ∃ k, p'.hand? = some (k, i)) →
      State.Kept { toShared := s', threads := s.threads.set t p' } i := by
    rintro (hreg | ⟨k, hk⟩)
    · exact .inl hreg
    · exact .inr ⟨t, p', k, by simp [hlen], hk⟩
  rcases h with ⟨k, hk⟩ | ⟨u, q, k, hq, hk⟩
  · exact here (hr k hk)
  · by_cases hu : t = u
    · subst hu
      cases ht.symm.trans hq
      exact here (hp k hk)
    · exact .inr ⟨u, q, k, by simpa [List.getElem?_set_ne hu] using hq, hk⟩

structure Owned (s : State ω τ) : Prop where
  keyed : Keyed s.registry
  counted : s.runners.length = s.builtFor.length
  registered {k : SessionKey} {i : Nat} : (k, i) ∈ s.registry → s.IsFor i k ∧ i ∉ s.closings
  fits {t : Nat} {p : Phase τ} : s.threads[t]? = some p → Fits s.toShared p
  known {i : Nat} : i ∈ s.closings → i < s.builtFor.length
  kept {i : Nat} : i < s.builtFor.length → i ∉ s.closings → s.Kept i
  once : s.closings.Nodup

theorem Owned.fresh (env : Env ω τ) (n : Nat) : Owned (State.fresh env n) where
  keyed := .nil
  counted := rfl
  registered he := by cases he
  fits ht := by
    cases List.eq_of_mem_replicate (List.mem_of_getElem? ht)
    exact .of_none rfl rfl rfl
  known hi := by cases hi
  kept hi := by cases hi
  once := List.nodup_nil

theorem register_of_absent {key : SessionKey} {i : Nat} {l : List (SessionKey × Nat)}
    (h : key.lookUp l = none) : register key i l = l ++ [(key, i)] := by
  induction l with
  | nil => rfl
  | cons e l ih =>
    obtain ⟨k, j⟩ := e
    simp only [Value.lookUp] at h
    split at h
    · cases h
    · rename_i hk
      simp [register, hk, ih h]

section

variable {s : State ω τ} {s' : Shared ω τ} {t : Nat} {key : SessionKey} {g i : Nat}

theorem Owned.keep (h : Owned s) {p p' : Phase τ} (ht : s.threads[t]? = some p)
    (hs : SameRunners s.toShared s') (hv : ∀ k, p'.vacant? = some k → k.lookUp s.registry = none)
    (hh : p.hand? = none) (hh' : p'.hand? = none) (hcl : p'.closing? = none) :
    Owned { toShared := s', threads := s.threads.set t p' } where
  keyed := hs.registry ▸ h.keyed
  counted := hs.count.trans (h.counted.trans (congrArg List.length hs.builtFor.symm))
  registered he := by
    obtain ⟨hf, hj⟩ := h.registered (hs.registry ▸ he)
    exact ⟨hf.congr hs.builtFor, hs.closings ▸ hj⟩
  fits := by
    refine Fits.set ⟨by simp [hh'], fun hk => hs.registry ▸ hv _ hk, by simp [hcl]⟩ fun _ hq => ?_
    exact (h.fits hq).same (·.congr hs.builtFor) hs.closings hs.registry
  known hj := hs.builtFor ▸ h.known (hs.closings ▸ hj)
  kept hj hjc := (h.kept (hs.builtFor ▸ hj) (hs.closings ▸ hjc)).set ht
    (fun k hk => .inl ⟨k, hs.registry ▸ hk⟩) (by simp [hh])
  once := hs.closings ▸ h.once

theorem Owned.build (h : Owned s) (ht : s.threads[t]? = some (.building key g))
    (hkey : key.isKey = true) (hr : s'.registry = s.registry)
    (hb : s'.builtFor = s.builtFor ++ [key]) (hc : s'.closings = s.closings)
    (hn : s'.runners.length = s.runners.length + 1) :
    Owned { toShared := s', threads := s.threads.set t (.registering key g s.runners.length) } := by
  have hlen : s'.builtFor.length = s.builtFor.length + 1 := by rw [hb, List.length_append]; rfl
  -- The new runner has a number that nobody knows yet.
  have hnew : s'.IsFor s.runners.length key := by
    refine ⟨key, ?_, sameKey_self hkey⟩
    rw [hb, h.counted, List.getElem?_concat_length]
  have hfresh : s.runners.length ∉ s'.closings := by
    intro hin
    exact absurd (h.known (hc ▸ hin)) (by simp [h.counted])
  constructor
  case keyed => exact hr ▸ h.keyed
  case counted =>
    show s'.runners.length = s'.builtFor.length
    rw [hn, hlen, h.counted]
  case registered =>
    intro k j he
    obtain ⟨hf, hj⟩ := h.registered (hr ▸ he)
    exact ⟨hf.append hb, hc ▸ hj⟩
  case fits =>
    refine Fits.set ⟨?_, ?_, by rintro _ _ ⟨⟩⟩ fun _ hq => (h.fits hq).same (·.append hb) hc hr
    · rintro k j ⟨⟩
      exact ⟨hnew, hfresh⟩
    · rintro k ⟨⟩
      exact hr ▸ (h.fits ht).vacant rfl
  case known =>
    intro j hj
    have := h.known (hc ▸ hj)
    show j < s'.builtFor.length
    omega
  case kept =>
    intro j hj hjc
    have hj : j < s'.builtFor.length := hj
    by_cases hold : j < s.builtFor.length
    · exact (h.kept hold (hc ▸ hjc)).set ht (fun k hk => .inl ⟨k, hr ▸ hk⟩) (by rintro _ ⟨⟩)
    · obtain rfl : j = s.runners.length := by have := h.counted; omega
      exact .inr ⟨t, .registering key g s.runners.length, key,
        by simp [(List.getElem?_eq_some_iff.mp ht).1], rfl⟩
  case once => exact hc ▸ h.once

theorem Owned.register (h : Owned s) (hg : Guarded s) {reply : Reply τ}
    (ht : s.threads[t]? = some (.registering key g i))
    (hr : s'.registry = Threads.register key i s.registry) (hb : s'.builtFor = s.builtFor)
    (hc : s'.closings = s.closings) (hn : s'.runners = s.runners) :
    Owned { toShared := s', threads := s.threads.set t (.unlocking key g reply) } := by
  have hkey : key.isKey = true := hg.proper ht rfl
  have habs : key.lookUp s.registry = none := (h.fits ht).vacant rfl
  rw [register_of_absent habs] at hr
  constructor
  case keyed => exact hr ▸ h.keyed.append hkey habs
  case counted => simpa only [hb, hn] using h.counted
  case registered =>
    intro k j he
    rcases List.mem_append.mp (hr ▸ he) with he | he
    · obtain ⟨hf, hj⟩ := h.registered he
      exact ⟨hf.congr hb, hc ▸ hj⟩
    · simp only [List.mem_singleton, Prod.mk.injEq] at he
      obtain ⟨rfl, rfl⟩ := he
      obtain ⟨hf, hj⟩ := (h.fits ht).held rfl
      exact ⟨hf.congr hb, hc ▸ hj⟩
  case fits =>
    refine Fits.set (.of_none rfl rfl rfl) fun hne hq => ?_
    refine (h.fits hq).carry (·.congr hb) (fun k j hqh => hc ▸ ((h.fits hq).held hqh).2) fun k hqv => ?_
    -- Another thread with this key would hold the same guard.
    have hk : key.sameKey k = false := by
      by_contra hsame
      obtain ⟨hqh, g', hqg⟩ := Phase.holds_of_vacant? hqv
      exact hne (hg.exclusive ht hq rfl hqg rfl hqh (by simpa using hsame)).symm
    rw [hr, Value.lookUp_append, (h.fits hq).vacant hqv]
    simp [Value.lookUp, hk]
  case known => intro j hj; rw [hb]; exact h.known (hc ▸ hj)
  case kept =>
    intro j hj hjc
    refine (h.kept (hb ▸ hj) (hc ▸ hjc)).set ht (fun k hk => ?_) ?_
    · exact .inl ⟨k, hr ▸ List.mem_append_left _ hk⟩
    · rintro k ⟨⟩
      exact .inl ⟨key, hr ▸ List.mem_append_right _ (List.mem_singleton_self _)⟩
  case once => exact hc ▸ h.once

theorem Owned.unregister (h : Owned s) (ht : s.threads[t]? = some (.checking .release key g))
    (hp : key.lookUp s.registry = some i)
    (hr : s'.registry = s.registry.filter (!·.1.sameKey key)) (hb : s'.builtFor = s.builtFor)
    (hc : s'.closings = s.closings) (hn : s'.runners = s.runners) :
    Owned { toShared := s', threads := s.threads.set t (.retiring key g i) } := by
  obtain ⟨key', hmem, hkk⟩ := Value.mem_of_lookUp hp
  constructor
  case keyed => exact hr ▸ h.keyed.filter _
  case counted => simpa only [hb, hn] using h.counted
  case registered =>
    intro k j he
    rw [hr] at he
    obtain ⟨hf, hj⟩ := h.registered (List.mem_filter.mp he).1
    exact ⟨hf.congr hb, hc ▸ hj⟩
  case fits =>
    refine Fits.set ⟨?_, ?_, by rintro _ _ ⟨⟩⟩ fun _ hq => ?_
    · rintro k j ⟨⟩
      obtain ⟨hf, hj⟩ := h.registered hmem
      exact ⟨(hf.of_same hkk).congr hb, hc ▸ hj⟩
    · rintro k ⟨⟩
      exact hr ▸ Value.lookUp_filter_self
    · refine (h.fits hq).carry (·.congr hb) (fun k j hqh => hc ▸ ((h.fits hq).held hqh).2) fun k hqv => ?_
      have hold := (h.fits hq).vacant hqv
      rw [Value.lookUp_eq_none_iff] at hold ⊢
      exact fun e he => hold e (List.mem_filter.mp (hr ▸ he)).1
  case known => intro j hj; rw [hb]; exact h.known (hc ▸ hj)
  case kept =>
    intro j hj hjc
    refine (h.kept (hb ▸ hj) (hc ▸ hjc)).set ht (fun k hk => ?_) (by rintro _ ⟨⟩)
    -- The one runner that leaves the registry is in the hands of this thread now.
    by_cases hsame : k.sameKey key = true
    · have := h.keyed.lookUp_of_mem hk hsame
      rw [hp] at this
      cases this
      exact .inr ⟨key, rfl⟩
    · exact .inl ⟨k, hr ▸ List.mem_filter.mpr ⟨hk, by simpa using hsame⟩⟩
  case once => exact hc ▸ h.once

theorem Owned.close (h : Owned s) (hg : Guarded s) (ht : s.threads[t]? = some (.retiring key g i))
    (hr : s'.registry = s.registry) (hb : s'.builtFor = s.builtFor)
    (hc : s'.closings = s.closings ++ [i]) (hn : s'.runners = s.runners) :
    Owned { toShared := s', threads := s.threads.set t (.closing key g i) } := by
  obtain ⟨hi, hnew⟩ := (h.fits ht).held rfl
  have hmem : ∀ {j}, j ∈ s'.closings ↔ j ∈ s.closings ∨ j = i := by simp [hc]
  constructor
  case keyed => exact hr ▸ h.keyed
  case counted => simpa only [hb, hn] using h.counted
  case registered =>
    intro k j he
    have hold : (k, j) ∈ s.registry := hr ▸ he
    obtain ⟨hf, hj⟩ := h.registered hold
    refine ⟨hf.congr hb, fun hin => ?_⟩
    rcases hmem.mp hin with hin | rfl
    · exact hj hin
    · have := Value.lookUp_eq_none_iff.mp ((h.fits ht).vacant rfl) _ hold
      simp [hf.same hi] at this
  case fits =>
    refine Fits.set ⟨by rintro _ _ ⟨⟩, by rintro _ ⟨⟩, ?_⟩ fun hne hq => ?_
    · rintro k j ⟨⟩
      exact hi.congr hb
    · refine (h.fits hq).carry (·.congr hb) (fun k j hqh hin => ?_) fun k hqv => hr ▸ (h.fits hq).vacant hqv
      obtain ⟨hf, hj⟩ := (h.fits hq).held hqh
      rcases hmem.mp hin with hin | rfl
      · exact hj hin
      · -- A runner is in the hands of the one thread that holds its key's guard.
        obtain ⟨hqo, g', hqg⟩ := Phase.holds_of_vacant? (Phase.vacant?_of_hand? hqh)
        exact hne (hg.exclusive hq ht hqg rfl hqo rfl (hf.same hi))
  case known =>
    intro j hj
    show j < s'.builtFor.length
    rw [hb]
    rcases hmem.mp hj with hj | rfl
    · exact h.known hj
    · exact hi.lt
  case kept =>
    intro j hj hjc
    have hjc : ¬ (j ∈ s.closings ∨ j = i) := fun hin => hjc (hmem.mpr hin)
    refine (h.kept (hb ▸ hj) fun hin => hjc (.inl hin)).set ht (fun k hk => .inl ⟨k, hr ▸ hk⟩) ?_
    rintro k ⟨⟩
    exact absurd (.inr rfl) hjc
  case once =>
    show s'.closings.Nodup
    rw [hc, List.nodup_append]
    refine ⟨h.once, by simp, ?_⟩
    rintro a ha b hb rfl
    exact hnew (List.mem_singleton.mp hb ▸ ha)

end

theorem Owned.step {s : State ω τ} (h : Owned s) (hg : Guarded s) {t : Nat} {p p' : Phase τ}
    {s' : Shared ω τ} (ht : s.threads[t]? = some p) (hs : RunnerStep s.toShared s' p p') :
    Owned { toShared := s', threads := s.threads.set t p' } := by
  cases hs with
  | keep hs hv hh hh' hcl => exact h.keep ht hs (fun k hk => (h.fits ht).vacant (hv k hk)) hh hh' hcl
  | miss absent hs =>
    subst hs
    exact h.keep ht (.refl _) (by rintro k ⟨⟩; exact absent) rfl rfl rfl
  | build hr hb hc hn => exact h.build ht (hg.proper ht rfl) hr hb hc hn
  | register hr hb hc hn => exact h.register hg ht hr hb hc hn
  | unregister present hr hb hc hn => exact h.unregister ht present hr hb hc hn
  | close hr hb hc hn => exact h.close hg ht hr hb hc hn

theorem Owned.move {s : State ω τ} (h : Owned s) (hg : Guarded s) (m : Move ω τ) :
    Owned (move plane factory s m) := by
  cases m with
  | begin t task key =>
    simp only [Threads.move]
    split
    · rename_i ht
      split
      · exact h.keep ht (.refl _) (by rintro k ⟨⟩) rfl rfl rfl
      · exact h
    · exact h
  | advance t =>
    simp only [Threads.move]
    split
    · rename_i p' shared hm
      obtain ⟨p, ht, hadv⟩ := Option.bind_eq_some_iff.mp hm
      exact h.step hg ht (runnerStep_of_advance hadv)
    · exact h
  | outside env runners =>
    exact {
      keyed := h.keyed
      counted := by simpa [Threads.move] using h.counted
      registered := h.registered
      fits := fun ht => (h.fits ht).same id rfl rfl
      known := h.known
      kept := h.kept
      once := h.once }

theorem Owned.after {s : State ω τ} (h : Owned s) (hg : Guarded s) (moves : List (Move ω τ)) :
    Owned (after plane factory moves s) := by
  induction moves generalizing s with
  | nil => exact h
  | cons m moves ih => exact ih (h.move hg m) (hg.move m)

end Playpen.Threads
