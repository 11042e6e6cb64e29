import Mathlib.Data.List.Perm.Basic
import Playpen.Proofs.Keys
import Playpen.Proofs.Pool.Threads

namespace Playpen.Threads

open Value (Keyed sameKey_iff sameKey_comm sameKey_trans sameKey_self)

variable {ω τ : Type}

namespace Phase

def key? : Phase τ → Option SessionKey
  | .idle => none
  | .looking _ k | .entering _ k | .waiting _ k _ | .checking _ k _ | .announcing k _ | .building k _
  | .registering k _ _ | .retiring k _ _ | .closing k _ _ | .unlocking k _ _ | .leaving k _ _
  | .returning k _ => some k

def guard? : Phase τ → Option (SessionKey × Nat)
  | .waiting _ k g | .checking _ k g | .announcing k g | .building k g | .registering k g _
  | .retiring k g _ | .closing k g _ | .unlocking k g _ | .leaving k g _ => some (k, g)
  | _ => none

def holds : Phase τ → Bool
  | .checking .. | .announcing .. | .building .. | .registering .. | .retiring .. | .closing ..
  | .unlocking .. => true
  | _ => false

def uses (g : Nat) (p : Phase τ) : Bool := p.guard?.any (·.2 = g)

def holdsLock (g : Nat) (p : Phase τ) : Bool := p.holds && p.uses g

theorem uses_of_guard? {p : Phase τ} {k : SessionKey} {g : Nat} (h : p.guard? = some (k, g)) :
    p.uses g = true := by
  simp [uses, h]

theorem guard?_of_uses {p : Phase τ} {g : Nat} (h : p.uses g = true) :
    ∃ k, p.guard? = some (k, g) := by
  cases hp : p.guard? with
  | none => simp [uses, hp] at h
  | some kg =>
    obtain rfl : kg.2 = g := by simpa [uses, hp] using h
    exact ⟨kg.1, rfl⟩

end Phase

inductive GuardStep (s s' : Shared ω τ) : Phase τ → Phase τ → Prop
  | keep {p p'} (hc : s'.current = s.current) (hg : s'.guards = s.guards)
      (hi : p'.guard? = p.guard?) (hh : p'.holds = p.holds) : GuardStep s s' p p'
  | enter {task key} (hc : s'.current = (s.enter key).2.current)
      (hg : s'.guards = (s.enter key).2.guards) :
      GuardStep s s' (.entering task key) (.waiting task key (s.enter key).1)
  | take {task key g} (free : s.isTaken g = false) (hc : s'.current = s.current)
      (hg : s'.guards = s.guards.modify g fun c => { c with taken := true }) :
      GuardStep s s' (.waiting task key g) (.checking task key g)
  | give {key g reply} (hc : s'.current = s.current)
      (hg : s'.guards = s.guards.modify g fun c => { c with taken := false }) :
      GuardStep s s' (.unlocking key g reply) (.leaving key g reply)
  | leave {key g reply reply'} (hc : s'.current = (s.leave key g).2.current)
      (hg : s'.guards = (s.leave key g).2.guards) :
      GuardStep s s' (.leaving key g reply) (.returning key reply')

theorem act_guards {α : Type} (x : SiteAct ω τ α) (s : Shared ω τ) :
    (s.act x).2.current = s.current ∧ (s.act x).2.guards = s.guards := ⟨rfl, rfl⟩

variable {plane : ControlPlane ω τ} {factory : RunnerFactory ω τ}

theorem guardStep_of_advance {p p' : Phase τ} {s s' : Shared ω τ}
    (h : advance plane factory p s = some (p', s')) : GuardStep s s' p p' := by
  cases p with
  | idle => cases h
  | looking task key =>
    cases task <;> simp only [advance] at h <;> split at h <;> cases h <;> exact .keep rfl rfl rfl rfl
  | entering task key =>
    simp only [advance, Option.some.injEq, Prod.mk.injEq] at h
    obtain ⟨rfl, rfl⟩ := h
    exact .enter rfl rfl
  | waiting task key g =>
    simp only [advance, Option.ite_none_left_eq_some, Option.some.injEq, Prod.mk.injEq] at h
    obtain ⟨hf, rfl, rfl⟩ := h
    exact .take (by simpa using hf) rfl rfl
  | checking task key g =>
    cases task <;> simp only [advance] at h <;> split at h <;> cases h <;> exact .keep rfl rfl rfl rfl
  | announcing key g =>
    simp only [advance] at h
    have hk := act_guards (announcement key) s
    split at h <;> rename_i ha <;> cases h <;> rw [ha] at hk <;> exact .keep hk.1 hk.2 rfl rfl
  | building key g =>
    simp only [advance] at h
    have hk := act_guards (construction factory key) s
    split at h <;> rename_i ha <;> cases h <;> rw [ha] at hk <;> exact .keep hk.1 hk.2 rfl rfl
  | registering key g i => cases h; exact .keep rfl rfl rfl rfl
  | retiring key g i => cases h; exact .keep rfl rfl rfl rfl
  | closing key g i => cases h; exact .keep rfl rfl rfl rfl
  | unlocking key g reply => cases h; exact .give rfl rfl
  | leaving key g reply => cases h; exact .leave rfl rfl
  | returning key reply => cases h; exact .keep rfl rfl rfl rfl

theorem key?_of_advance {p p' : Phase τ} {s s' : Shared ω τ}
    (h : advance plane factory p s = some (p', s')) : p' = .idle ∨ p'.key? = p.key? := by
  cases p with
  | idle => cases h
  | looking task key =>
    cases task <;> simp only [advance] at h <;> split at h <;> cases h <;> exact .inr rfl
  | checking task key g =>
    cases task <;> simp only [advance] at h <;> split at h <;> cases h <;> exact .inr rfl
  | waiting task key g =>
    simp only [advance, Option.ite_none_left_eq_some, Option.some.injEq, Prod.mk.injEq] at h
    exact .inr (h.2.1 ▸ rfl)
  | announcing key g => simp only [advance] at h; split at h <;> cases h <;> exact .inr rfl
  | building key g => simp only [advance] at h; split at h <;> cases h <;> exact .inr rfl
  | returning key reply => cases h; exact .inl rfl
  | entering | registering | retiring | closing | unlocking | leaving => cases h; exact .inr rfl

theorem getElem?_of_set {α : Type} {l : List α} {t u : Nat} {a b : α}
    (h : (l.set t a)[u]? = some b) : (u = t ∧ b = a) ∨ (u ≠ t ∧ l[u]? = some b) := by
  rw [List.getElem?_set] at h
  by_cases hu : t = u
  · subst hu
    simp only [↓reduceIte, Option.ite_none_right_eq_some, Option.some.injEq] at h
    exact .inl ⟨rfl, h.2.symm⟩
  · simp only [hu, ↓reduceIte] at h
    exact .inr ⟨fun he => hu he.symm, h⟩

theorem countP_of_set {α : Type} {l : List α} {t : Nat} {a b : α} (q : α → Bool)
    (h : l[t]? = some a) :
    (l.set t b).countP q + (if q a then 1 else 0) = l.countP q + if q b then 1 else 0 := by
  obtain ⟨ht, ha⟩ := List.getElem?_eq_some_iff.mp h
  rw [List.countP_set ht, ha]
  by_cases hq : q a = true
  · have : 0 < l.countP q := List.countP_pos_iff.mpr ⟨a, ha ▸ List.getElem_mem ht, hq⟩
    simp only [hq, ↓reduceIte]
    omega
  · simp [hq]

theorem pos_countP_of_getElem? {α : Type} {l : List α} {t : Nat} {a : α} {q : α → Bool}
    (h : l[t]? = some a) (hq : q a = true) : 0 < l.countP q :=
  List.countP_pos_iff.mpr ⟨a, List.mem_of_getElem? h, hq⟩

theorem two_le_countP {α : Type} {l : List α} {t u : Nat} {a b : α} {q : α → Bool}
    (ht : l[t]? = some a) (hu : l[u]? = some b) (ha : q a = true) (hb : q b = true) (hne : t ≠ u) :
    2 ≤ l.countP q := by
  obtain ⟨hlt, hget⟩ := List.getElem?_eq_some_iff.mp ht
  have hmem : b ∈ l.eraseIdx t := by
    rw [List.mem_eraseIdx_iff_getElem?]
    exact ⟨u, hne.symm, hu⟩
  have hpos : 0 < (l.eraseIdx t).countP q := List.countP_pos_iff.mpr ⟨b, hmem, hb⟩
  have hperm := (List.getElem_cons_eraseIdx_perm hlt).countP_eq q
  rw [List.countP_cons, hget, ha] at hperm
  simp only [↓reduceIte] at hperm
  omega

structure Guarded (s : State ω τ) : Prop where
  proper {t : Nat} {p : Phase τ} {k : SessionKey} :
    s.threads[t]? = some p → p.key? = some k → k.isKey = true
  keyed : Keyed s.current
  numbers : (s.current.map (·.2)).Nodup
  range {k : SessionKey} {g : Nat} : (k, g) ∈ s.current → g < s.guards.length
  inside {t : Nat} {p : Phase τ} {k : SessionKey} {g : Nat} :
    s.threads[t]? = some p → p.guard? = some (k, g) → k.lookUp s.current = some g
  users {k : SessionKey} {g : Nat} :
    (k, g) ∈ s.current → s.users g = s.threads.countP (Phase.uses g)
  used {k : SessionKey} {g : Nat} : (k, g) ∈ s.current → 0 < s.users g
  lock (g : Nat) : s.threads.countP (Phase.holdsLock g) ≤ if s.isTaken g then 1 else 0

theorem Guarded.lt_of_inside {s : State ω τ} (h : Guarded s) {t : Nat} {p : Phase τ}
    {k : SessionKey} {g : Nat} (ht : s.threads[t]? = some p) (hp : p.guard? = some (k, g)) :
    g < s.guards.length := by
  obtain ⟨_, hm, _⟩ := Value.mem_of_lookUp (h.inside ht hp)
  exact h.range hm

theorem Guarded.exclusive {s : State ω τ} (h : Guarded s) {t u : Nat} {p q : Phase τ}
    {k j : SessionKey} {g g' : Nat} (ht : s.threads[t]? = some p) (hu : s.threads[u]? = some q)
    (hpg : p.guard? = some (k, g)) (hqg : q.guard? = some (j, g')) (hp : p.holds = true)
    (hq : q.holds = true) (hkj : k.sameKey j = true) : t = u := by
  have hg : some g = some g' := by
    rw [← h.inside ht hpg, ← h.inside hu hqg]
    exact Value.lookUp_congr (sameKey_iff.mp hkj).2
  cases hg
  by_contra hne
  have htwo : 2 ≤ s.threads.countP (Phase.holdsLock g) :=
    two_le_countP ht hu (by simp [Phase.holdsLock, hp, Phase.uses_of_guard? hpg])
      (by simp [Phase.holdsLock, hq, Phase.uses_of_guard? hqg]) hne
  have hone := h.lock g
  split at hone <;> omega

theorem Guarded.fresh (env : Env ω τ) (n : Nat) : Guarded (State.fresh env n) := by
  have idle : ∀ {t : Nat} {p : Phase τ}, (State.fresh env n).threads[t]? = some p → p = .idle := by
    intro t p h
    exact List.eq_of_mem_replicate (List.mem_of_getElem? h)
  constructor
  case keyed => exact Keyed.nil
  case numbers => exact List.nodup_nil
  case range | users | used => intro k g he; cases he
  case proper => intro t p k ht hk; cases idle ht; cases hk
  case inside => intro t p k g ht hk; cases idle ht; cases hk
  case lock =>
    intro g
    have : (State.fresh env n : State ω τ).threads.countP (Phase.holdsLock g) = 0 := by
      rw [List.countP_eq_zero]
      intro p hp
      rw [List.eq_of_mem_replicate hp]
      simp [Phase.holdsLock, Phase.holds]
    omega

theorem users_modify {s s' : Shared ω τ} {g : Nat} {f : Guard → Guard} (h : g < s.guards.length)
    (hg : s'.guards = s.guards.modify g f) (g' : Nat) :
    s'.users g' = if g' = g then (f s.guards[g]).users else s.users g' := by
  by_cases hgg : g' = g
  · subst hgg
    simp [Shared.users, hg, h]
  · simp [Shared.users, hg, hgg, Ne.symm hgg]

theorem isTaken_modify {s s' : Shared ω τ} {g : Nat} {f : Guard → Guard} (h : g < s.guards.length)
    (hg : s'.guards = s.guards.modify g f) (g' : Nat) :
    s'.isTaken g' = if g' = g then (f s.guards[g]).taken else s.isTaken g' := by
  by_cases hgg : g' = g
  · subst hgg
    simp [Shared.isTaken, hg, h]
  · simp [Shared.isTaken, hg, hgg, Ne.symm hgg]

theorem getElem?_push {s s' : Shared ω τ} {c : Guard} (hg : s'.guards = s.guards ++ [c]) {g : Nat}
    (hne : g ≠ s.guards.length) : s'.guards[g]? = s.guards[g]? := by
  rw [hg, List.getElem?_append]
  split
  · rfl
  · rw [List.getElem?_eq_none (by simp; omega), List.getElem?_eq_none (by omega)]

theorem users_push {s s' : Shared ω τ} {c : Guard} (hg : s'.guards = s.guards ++ [c]) (g : Nat) :
    s'.users g = if g = s.guards.length then c.users else s.users g := by
  split
  · subst g
    simp [Shared.users, hg]
  · rename_i hne
    simp only [Shared.users, getElem?_push hg hne]

theorem isTaken_push {s s' : Shared ω τ} {c : Guard} (hg : s'.guards = s.guards ++ [c])
    (hc : c.taken = false) (g : Nat) : s'.isTaken g = s.isTaken g := by
  by_cases hne : g = s.guards.length
  · subst hne
    simp [Shared.isTaken, hg, hc]
  · simp only [Shared.isTaken, getElem?_push hg hne]

theorem Guarded.proper_set {s : State ω τ} (h : Guarded s) {t : Nat} {p' : Phase τ}
    (hk : ∀ k, p'.key? = some k → k.isKey = true) {u : Nat} {q : Phase τ} {k : SessionKey}
    (hq : (s.threads.set t p')[u]? = some q) (hqk : q.key? = some k) : k.isKey = true := by
  rcases getElem?_of_set hq with ⟨rfl, rfl⟩ | ⟨_, hq⟩
  · exact hk k hqk
  · exact h.proper hq hqk

theorem Guarded.countP_next {s : State ω τ} (h : Guarded s) :
    s.threads.countP (Phase.uses s.guards.length) = 0 := by
  rw [List.countP_eq_zero]
  intro p hp hpu
  obtain ⟨u, hu⟩ := List.getElem?_of_mem hp
  obtain ⟨k, hk⟩ := Phase.guard?_of_uses hpu
  exact absurd (h.lt_of_inside hu hk) (Nat.lt_irrefl _)

theorem Guarded.ne_of_mem_filter {s : State ω τ} (h : Guarded s) {key : SessionKey} {g : Nat}
    (hl : key.lookUp s.current = some g) {k : SessionKey} {g' : Nat}
    (hm : (k, g') ∈ s.current.filter (!·.1.sameKey key)) : (k, g') ∈ s.current ∧ g' ≠ g := by
  obtain ⟨key', hmem, hkk⟩ := Value.mem_of_lookUp hl
  obtain ⟨hm, hk⟩ := List.mem_filter.mp hm
  refine ⟨hm, ?_⟩
  rintro rfl
  have heq := List.inj_on_of_nodup_map h.numbers hm hmem rfl
  simp only [Prod.mk.injEq, and_true] at heq
  simp [heq, hkk] at hk

theorem Guarded.keep {s : State ω τ} (h : Guarded s) {t : Nat} {p p' : Phase τ} {s' : Shared ω τ}
    (ht : s.threads[t]? = some p) (hk : ∀ k, p'.key? = some k → k.isKey = true)
    (hc : s'.current = s.current) (hg : s'.guards = s.guards) (hi : p'.guard? = p.guard?)
    (hh : p'.holds = p.holds) : Guarded { toShared := s', threads := s.threads.set t p' } := by
  have hu : ∀ g, s'.users g = s.users g := fun g => by simp only [Shared.users, hg]
  have hn : ∀ g, (s.threads.set t p').countP (Phase.uses g) = s.threads.countP (Phase.uses g) := by
    intro g
    have hp : p'.uses g = p.uses g := by simp [Phase.uses, hi]
    have := countP_of_set (b := p') (Phase.uses g) ht
    rw [hp] at this
    omega
  constructor
  case proper => exact h.proper_set hk
  case keyed => simpa only [hc] using h.keyed
  case numbers => simpa only [hc] using h.numbers
  case range => intro k g he; rw [hg]; exact h.range (hc ▸ he)
  case inside =>
    intro u q k g hq hqg
    rcases getElem?_of_set hq with ⟨rfl, rfl⟩ | ⟨_, hq⟩
    · exact hc ▸ h.inside ht (hi.symm.trans hqg)
    · exact hc ▸ h.inside hq hqg
  case users => intro k g he; rw [hu, hn]; exact h.users (hc ▸ he)
  case used => intro k g he; rw [hu]; exact h.used (hc ▸ he)
  case lock =>
    intro g
    have hp : p'.holdsLock g = p.holdsLock g := by simp [Phase.holdsLock, Phase.uses, hi, hh]
    have hset := countP_of_set (b := p') (Phase.holdsLock g) ht
    have hold := h.lock g
    have ht' : s'.isTaken g = s.isTaken g := by simp only [Shared.isTaken, hg]
    rw [hp] at hset
    show (s.threads.set t p').countP (Phase.holdsLock g) ≤ if s'.isTaken g then 1 else 0
    rw [ht']
    omega

theorem Guarded.setGuard {s : State ω τ} (h : Guarded s) {t g : Nat} {p p' : Phase τ}
    {f : Guard → Guard} {s' : Shared ω τ} (ht : s.threads[t]? = some p)
    (hk : ∀ k, p'.key? = some k → k.isKey = true) (hc : s'.current = s.current)
    (hg : s'.guards = s.guards.modify g f) (hlt : g < s.guards.length)
    (hin : ∀ k g', p'.guard? = some (k, g') → k.lookUp s.current = some g')
    (hp : ∀ g', g' ≠ g → p.uses g' = false) (hp' : ∀ g', g' ≠ g → p'.uses g' = false)
    (hcount : (f s.guards[g]).users + (if p.uses g then 1 else 0) =
      s.guards[g].users + if p'.uses g then 1 else 0)
    (hpos : 0 < (f s.guards[g]).users)
    (hlock : ∀ n, n ≤ (if s.guards[g].taken then 1 else 0) → (if p.holdsLock g then 1 else 0) ≤ n →
      n + (if p'.holdsLock g then 1 else 0) ≤
        (if (f s.guards[g]).taken then 1 else 0) + if p.holdsLock g then 1 else 0) :
    Guarded { toShared := s', threads := s.threads.set t p' } := by
  have hu := users_modify hlt hg
  have hi := isTaken_modify hlt hg
  -- Nothing but `g` and the thread `t` changes, so every other guard is counted and held as before.
  constructor
  case proper => exact h.proper_set hk
  case keyed => exact hc ▸ h.keyed
  case numbers => exact hc ▸ h.numbers
  case range =>
    intro k g' he
    simpa [hg] using h.range (hc ▸ he)
  case inside =>
    intro u q k g' hq hqg
    rcases getElem?_of_set hq with ⟨rfl, rfl⟩ | ⟨_, hq⟩
    · exact hc ▸ hin k g' hqg
    · exact hc ▸ h.inside hq hqg
  case users =>
    intro k g' he
    have hold : s.users g' = s.threads.countP (Phase.uses g') := h.users (hc ▸ he)
    have hset := countP_of_set (b := p') (Phase.uses g') ht
    show s'.users g' = (s.threads.set t p').countP (Phase.uses g')
    by_cases hgg : g' = g
    · subst hgg
      have hug : s.users g' = s.guards[g'].users := by simp [Shared.users, hlt]
      rw [hu, if_pos rfl]
      omega
    · rw [hp g' hgg, hp' g' hgg] at hset
      rw [hu, if_neg hgg, hold]
      omega
  case used =>
    intro k g' he
    show 0 < s'.users g'
    rw [hu]
    split
    · exact hpos
    · exact h.used (hc ▸ he)
  case lock =>
    intro g'
    have hold := h.lock g'
    have hset := countP_of_set (b := p') (Phase.holdsLock g') ht
    show (s.threads.set t p').countP (Phase.holdsLock g') ≤ if s'.isTaken g' then 1 else 0
    rw [hi]
    by_cases hgg : g' = g
    · subst hgg
      have hig : s.isTaken g' = s.guards[g'].taken := by simp [Shared.isTaken, hlt]
      have hself : (if p.holdsLock g' then 1 else 0) ≤ s.threads.countP (Phase.holdsLock g') := by
        split
        · rename_i hpl
          exact pos_countP_of_getElem? ht hpl
        · exact Nat.zero_le _
      have := hlock _ (hig ▸ hold) hself
      rw [if_pos rfl]
      omega
    · have hpf : p.holdsLock g' = false := by simp [Phase.holdsLock, hp g' hgg]
      have hpf' : p'.holdsLock g' = false := by simp [Phase.holdsLock, hp' g' hgg]
      rw [hpf, hpf'] at hset
      rw [if_neg hgg]
      omega

theorem Shared.enter_some {s : Shared ω τ} {key : SessionKey} {g : Nat}
    (h : key.lookUp s.current = some g) :
    s.enter key = (g, s.setGuard g fun c => { c with users := c.users + 1 }) := by
  simp only [Shared.enter, h]

theorem Shared.enter_none {s : Shared ω τ} {key : SessionKey} (h : key.lookUp s.current = none) :
    s.enter key = (s.guards.length,
      { s with current := s.current ++ [(key, s.guards.length)], guards := s.guards ++ [⟨1, false⟩] }) := by
  simp only [Shared.enter, h]

theorem Guarded.enter_new {s : State ω τ} (h : Guarded s) {t : Nat} {task : Task} {key : SessionKey}
    {s' : Shared ω τ} (ht : s.threads[t]? = some (.entering task key))
    (hl : key.lookUp s.current = none) (hc : s'.current = s.current ++ [(key, s.guards.length)])
    (hg : s'.guards = s.guards ++ [⟨1, false⟩]) :
    Guarded { toShared := s', threads := s.threads.set t (.waiting task key s.guards.length) } := by
  have hkey : key.isKey = true := h.proper ht rfl
  -- The new guard has a number that no entry has, so the entries before it are as they were.
  have hold : ∀ {k g}, (k, g) ∈ s.current → g ≠ s.guards.length := fun he => Nat.ne_of_lt (h.range he)
  have huses : ∀ g, (s.threads.set t (.waiting task key s.guards.length)).countP (Phase.uses g) =
      s.threads.countP (Phase.uses g) + if g = s.guards.length then 1 else 0 := by
    intro g
    have := countP_of_set (b := .waiting task key s.guards.length) (Phase.uses g) ht
    simpa [Phase.uses, Phase.guard?, eq_comm] using this
  have hlocks : ∀ g, (s.threads.set t (.waiting task key s.guards.length)).countP
      (Phase.holdsLock g) = s.threads.countP (Phase.holdsLock g) := by
    intro g
    have := countP_of_set (b := .waiting task key s.guards.length) (Phase.holdsLock g) ht
    simpa [Phase.holdsLock, Phase.holds] using this
  have hu : ∀ g, s'.users g = if g = s.guards.length then 1 else s.users g := users_push hg
  have hi : ∀ g, s'.isTaken g = s.isTaken g := isTaken_push hg rfl
  constructor
  case proper => exact h.proper_set (by rintro k ⟨⟩; exact hkey)
  case keyed => exact hc ▸ h.keyed.append hkey hl
  case numbers =>
    show (s'.current.map (·.2)).Nodup
    rw [hc, List.map_append, List.nodup_append]
    refine ⟨h.numbers, by simp, ?_⟩
    intro a ha b hb
    obtain ⟨e, he, rfl⟩ := List.mem_map.mp ha
    obtain rfl : b = s.guards.length := by simpa using hb
    exact hold he
  case range =>
    intro k g he
    show g < s'.guards.length
    rw [hg, List.length_append]
    rcases List.mem_append.mp (hc ▸ he) with he | he
    · exact Nat.lt_succ_of_lt (h.range he)
    · simp only [List.mem_singleton, Prod.mk.injEq] at he
      simp [he.2]
  case inside =>
    intro u q k g hq hqg
    show k.lookUp s'.current = some g
    rw [hc, Value.lookUp_append]
    rcases getElem?_of_set hq with ⟨rfl, rfl⟩ | ⟨_, hq⟩
    · cases hqg
      simp [hl, Value.lookUp, Value.sameKey_self hkey]
    · simp [h.inside hq hqg]
  case users =>
    intro k g he
    show s'.users g = List.countP _ _
    rw [hu, huses]
    rcases List.mem_append.mp (hc ▸ he) with he | he
    · simp [hold he, h.users he]
    · simp only [List.mem_singleton, Prod.mk.injEq] at he
      simp [he.2, h.countP_next]
  case used =>
    intro k g he
    show 0 < s'.users g
    rw [hu]
    rcases List.mem_append.mp (hc ▸ he) with he | he
    · simp [hold he, h.used he]
    · simp only [List.mem_singleton, Prod.mk.injEq] at he
      simp [he.2]
  case lock =>
    intro g
    show List.countP _ (s.threads.set t _) ≤ if s'.isTaken g then 1 else 0
    rw [hlocks, hi]
    exact h.lock g

theorem Guarded.leave_last {s : State ω τ} (h : Guarded s) {t g : Nat} {key : SessionKey}
    {reply reply' : Reply τ} {s' : Shared ω τ} (ht : s.threads[t]? = some (.leaving key g reply))
    (hlast : s.users g = 1) (hc : s'.current = s.current.filter (!·.1.sameKey key))
    (hg : s'.guards = s.guards.modify g fun c => { c with users := c.users - 1 }) :
    Guarded { toShared := s', threads := s.threads.set t (.returning key reply') } := by
  have hkey : key.isKey = true := h.proper ht rfl
  have hin : key.lookUp s.current = some g := h.inside ht rfl
  have hlt : g < s.guards.length := h.lt_of_inside ht rfl
  obtain ⟨_, hmem, _⟩ := Value.mem_of_lookUp hin
  have huses : ∀ g', (s.threads.set t (.returning key reply')).countP (Phase.uses g') +
      (if g' = g then 1 else 0) = s.threads.countP (Phase.uses g') := by
    intro g'
    have := countP_of_set (b := .returning key reply') (Phase.uses g') ht
    simpa [Phase.uses, Phase.guard?, eq_comm] using this
  have hlocks : ∀ g', (s.threads.set t (.returning key reply')).countP (Phase.holdsLock g') =
      s.threads.countP (Phase.holdsLock g') := by
    intro g'
    have := countP_of_set (b := .returning key reply') (Phase.holdsLock g') ht
    simpa [Phase.holdsLock, Phase.holds] using this
  -- The count was one and this thread was in it, so nobody else has the guard.
  have hzero : (s.threads.set t (.returning key reply')).countP (Phase.uses g) = 0 := by
    have hone := h.users hmem
    have := huses g
    simp only [↓reduceIte] at this
    omega
  have hu : ∀ g', g' ≠ g → s'.users g' = s.users g' := by
    intro g' hne
    rw [users_modify hlt hg, if_neg hne]
  have hi : ∀ g', s'.isTaken g' = s.isTaken g' := by
    intro g'
    rw [isTaken_modify hlt hg]
    split
    · subst g'
      simp [Shared.isTaken, hlt]
    · rfl
  have hrest : ∀ {k g'}, (k, g') ∈ s'.current → (k, g') ∈ s.current ∧ g' ≠ g :=
    fun he => h.ne_of_mem_filter hin (hc ▸ he)
  constructor
  case proper => exact h.proper_set (by rintro k ⟨⟩; exact hkey)
  case keyed => exact hc ▸ h.keyed.filter _
  case numbers => exact hc ▸ (List.Sublist.map _ List.filter_sublist).nodup h.numbers
  case range =>
    intro k g' he
    simpa [hg] using h.range (hrest he).1
  case inside =>
    intro u q k g' hq hqg
    have hne : g' ≠ g := by
      rintro rfl
      have hpos := pos_countP_of_getElem? hq (Phase.uses_of_guard? hqg)
      exact absurd hzero (Nat.ne_of_gt hpos)
    rcases getElem?_of_set hq with ⟨rfl, rfl⟩ | ⟨_, hq⟩
    · cases hqg
    have hl := h.inside hq hqg
    have hk : k.sameKey key = false := by
      by_contra hsame
      have hsame : k.sameKey key = true := by simpa using hsame
      have := Value.lookUp_congr (l := s.current) (sameKey_iff.mp hsame).2
      rw [hl, hin] at this
      exact hne (by simpa using this)
    show k.lookUp s'.current = some g'
    rw [hc, Value.lookUp_filter_ne hk, hl]
  case users =>
    intro k g' he
    obtain ⟨hm, hne⟩ := hrest he
    have := huses g'
    simp only [hne, ↓reduceIte, Nat.add_zero] at this
    show s'.users g' = List.countP _ (s.threads.set t _)
    rw [hu g' hne, h.users hm, this]
  case used =>
    intro k g' he
    obtain ⟨hm, hne⟩ := hrest he
    show 0 < s'.users g'
    rw [hu g' hne]
    exact h.used hm
  case lock =>
    intro g'
    show List.countP _ (s.threads.set t _) ≤ if s'.isTaken g' then 1 else 0
    rw [hlocks, hi]
    exact h.lock g'

theorem Guarded.step {s : State ω τ} (h : Guarded s) {t : Nat} {p p' : Phase τ} {s' : Shared ω τ}
    (ht : s.threads[t]? = some p) (hk : ∀ k, p'.key? = some k → k.isKey = true)
    (hs : GuardStep s.toShared s' p p') :
    Guarded { toShared := s', threads := s.threads.set t p' } := by
  cases hs with
  | keep hc hg hi hh => exact h.keep ht hk hc hg hi hh
  | @enter task key hc hg =>
    cases hl : key.lookUp s.current with
    | none =>
      rw [Shared.enter_none hl] at hc hg ⊢
      exact h.enter_new ht hl hc hg
    | some g =>
      obtain ⟨_, hm, _⟩ := Value.mem_of_lookUp hl
      rw [Shared.enter_some hl] at hc hg hk ⊢
      apply h.setGuard ht hk hc hg (h.range hm)
      · intro k g' hkg; cases hkg; exact hl
      · intro g' _; rfl
      · intro g' hne; simpa [Phase.uses, Phase.guard?] using Ne.symm hne
      · simp [Phase.uses, Phase.guard?]
      · exact Nat.succ_pos _
      · intro n hn _; simpa [Phase.holdsLock, Phase.holds] using hn
  | @take task key g free hc hg =>
    have hlt := h.lt_of_inside ht rfl
    have hfree : s.guards[g].taken = false := by simpa [Shared.isTaken, hlt] using free
    obtain ⟨_, hm, _⟩ := Value.mem_of_lookUp (h.inside ht rfl)
    apply h.setGuard ht hk hc hg hlt
    · intro k g' hkg; cases hkg; exact h.inside ht rfl
    · intro g' hne; simpa [Phase.uses, Phase.guard?] using Ne.symm hne
    · intro g' hne; simpa [Phase.uses, Phase.guard?] using Ne.symm hne
    · simp [Phase.uses, Phase.guard?]
    · simpa [Shared.users, hlt] using h.used hm
    · intro n hn _
      simp only [hfree, Bool.false_eq_true, ↓reduceIte, Nat.le_zero] at hn
      simp [hn, Phase.holdsLock, Phase.holds, Phase.uses, Phase.guard?]
  | @give key g reply hc hg =>
    have hlt := h.lt_of_inside ht rfl
    obtain ⟨_, hm, _⟩ := Value.mem_of_lookUp (h.inside ht rfl)
    apply h.setGuard ht hk hc hg hlt
    · intro k g' hkg; cases hkg; exact h.inside ht rfl
    · intro g' hne; simpa [Phase.uses, Phase.guard?] using Ne.symm hne
    · intro g' hne; simpa [Phase.uses, Phase.guard?] using Ne.symm hne
    · simp [Phase.uses, Phase.guard?]
    · simpa [Shared.users, hlt] using h.used hm
    · intro n hn _
      simp only [Phase.holdsLock, Phase.holds, Phase.uses, Phase.guard?]
      split at hn <;> simp_all
  | @leave key g reply reply' hc hg =>
    have hlt := h.lt_of_inside ht rfl
    have hin := h.inside ht rfl
    obtain ⟨_, hm, _⟩ := Value.mem_of_lookUp hin
    have hused : 0 < s.guards[g].users := by simpa [Shared.users, hlt] using h.used hm
    have hnew : (s.setGuard g fun c => { c with users := c.users - 1 }).users g =
        s.guards[g].users - 1 := (users_modify hlt rfl g).trans (if_pos rfl)
    -- The last user takes the guard away from its key, any other one only counts itself out.
    by_cases hlast : s.guards[g].users - 1 = 0
    · simp only [Shared.leave, hnew, hlast, ne_eq, not_true_eq_false, ↓reduceIte] at hc hg
      have hlook : key.lookUp (s.setGuard g fun c => { c with users := c.users - 1 }).current =
          some g := hin
      rw [hlook] at hc hg
      exact h.leave_last ht (by simp [Shared.users, hlt]; omega) hc hg
    · simp only [Shared.leave, hnew, hlast, ne_eq, not_false_eq_true, ↓reduceIte] at hc hg
      apply h.setGuard ht hk hc hg hlt
      · intro k g' hkg; cases hkg
      · intro g' hne; simpa [Phase.uses, Phase.guard?] using Ne.symm hne
      · intro g' _; rfl
      · simp only [Phase.uses, Phase.guard?, Option.any_some, Option.any_none, decide_true,
          ↓reduceIte, Bool.false_eq_true, Nat.add_zero]
        omega
      · show 0 < s.guards[g].users - 1
        omega
      · intro n hn _; simpa [Phase.holdsLock, Phase.holds] using hn

theorem Guarded.move {s : State ω τ} (h : Guarded s) (m : Move ω τ) :
    Guarded (move plane factory s m) := by
  cases m with
  | begin t task key =>
    simp only [Threads.move]
    split
    · rename_i ht
      split
      · rename_i hkey
        exact h.keep ht (by intro k hk; cases hk; exact hkey) rfl rfl rfl rfl
      · exact h
    · exact h
  | advance t =>
    simp only [Threads.move]
    split
    · rename_i p' shared hm
      obtain ⟨p, ht, hadv⟩ := Option.bind_eq_some_iff.mp hm
      refine h.step ht ?_ (guardStep_of_advance hadv)
      intro k hk
      rcases key?_of_advance hadv with rfl | he
      · cases hk
      · exact h.proper ht (he.symm.trans hk)
    · exact h
  | outside env runners =>
    exact {
      proper := h.proper
      keyed := h.keyed
      numbers := h.numbers
      range := h.range
      inside := h.inside
      users := h.users
      used := h.used
      lock := h.lock }

theorem Guarded.after {s : State ω τ} (h : Guarded s) (moves : List (Move ω τ)) :
    Guarded (after plane factory moves s) := by
  induction moves generalizing s with
  | nil => exact h
  | cons m moves ih => exact ih (h.move m)

end Playpen.Threads
