import Playpen.Proofs.Plane.Scripted
import Playpen.Proofs.Runner.Balance

namespace Playpen

open PlaneCall (created? removed? connected? closed?)

variable {ω τ : Type}

theorem count_flatMap_set {α β : Type} [BEq β] {f : α → List β} {l : List α} {i : Nat} {a : α}
    (h : l[i]? = some a) (b : α) (x : β) : ((l.set i b).flatMap f).count x + (f a).count x =
      (l.flatMap f).count x + (f b).count x := by
  induction l generalizing i with
  | nil => cases h
  | cons c l ih =>
    cases i with
    | zero =>
      cases h
      simp only [List.set_cons_zero, List.flatMap_cons, List.count_append]
      omega
    | succ i =>
      have := ih (i := i) (by simpa using h)
      simp only [List.set_cons_succ, List.flatMap_cons, List.count_append]
      omega

namespace Holdings

structure Ledger (calls : List (PlaneCall τ)) (h : Holdings τ) : Prop where
  environments (id : EnvironmentId) : (calls.filterMap created?).count id =
    (calls.filterMap removed?).count id + (h.runners.flatMap (·.environment.toList)).count id
  links (l : Link) : (calls.filterMap connected?).count l =
    (calls.filterMap closed?).count l + (h.runners.flatMap Runner.openLink).count l
  retired {i : Nat} {r : Runner τ} : h.runners[i]? = some r → (∀ k, (k, i) ∉ h.registry) →
    r.closed = true ∧ r.environment = none

theorem Ledger.empty : Ledger [] ({} : Holdings τ) where
  environments _ := rfl
  links _ := rfl
  retired hr := by cases hr

theorem Ledger.put {calls added : List (PlaneCall τ)} {h : Holdings τ} (hl : h.Ledger calls) {i : Nat}
    {r r' : Runner τ} (hr : h.runners[i]? = some r) (hb : r.Balanced added r')
    {registry : List (SessionKey × Nat)}
    (hret : (∀ k, (k, i) ∉ registry) → r'.closed = true ∧ r'.environment = none)
    (hrest : ∀ j, j ≠ i → (∀ k, (k, j) ∉ registry) → ∀ k, (k, j) ∉ h.registry) :
    Ledger (calls ++ added) ⟨h.runners.set i r', registry⟩ where
  environments id := by
    have := hl.environments id
    have := hb.environments id
    have := count_flatMap_set (f := (·.environment.toList)) hr r' id
    simp only [List.filterMap_append, List.count_append]
    omega
  links l := by
    have := hl.links l
    have := hb.links l
    have := count_flatMap_set (f := Runner.openLink) hr r' l
    simp only [List.filterMap_append, List.count_append]
    omega
  retired {j q} hq hno := by
    by_cases hij : j = i
    · subst hij
      obtain rfl : r' = q := by
        simpa [(List.getElem?_eq_some_iff.mp hr).1] using hq
      exact hret hno
    · have hq : h.runners[j]? = some q := by simpa [Ne.symm hij] using hq
      exact hl.retired hq (hrest j hij hno)

theorem opens_balanced {settings : Settings τ} {key : SessionKey} {added : List (PlaneCall τ)}
    {out : Except (Failure τ) (Runner τ)} (h : Runner.Opens settings key added out)
    (ho : settings.ownsEnvironment = true) :
    (∀ id, (added.filterMap created?).count id = (added.filterMap removed?).count id +
      (out.toOption.toList.flatMap (·.environment.toList)).count id) ∧
    ∀ l, (added.filterMap connected?).count l = (added.filterMap closed?).count l +
      (out.toOption.toList.flatMap Runner.openLink).count l := by
  cases h with
  | unconnected => simp [List.filterMap_cons, Except.toOption]
  | @opened link added r hs =>
    have hb := hs.balanced ho
    constructor <;> intro x
    · have := hb.environments x
      simpa [List.filterMap_cons, Except.toOption] using this
    · have := hb.links x
      -- The new connection is held at first, so opening the runner accounts for it.
      have hfresh : Runner.openLink ({ key, settings, link } : Runner τ) = [link] := rfl
      rw [hfresh] at this
      simp only [List.filterMap_cons, connected?, closed?, Except.toOption, Option.toList_some,
        List.flatMap_cons, List.flatMap_nil, List.append_nil]
      simp only [List.count_cons, List.count_nil] at this ⊢
      omega
  | @failed link added r e closing hs =>
    have hb := hs.balanced ho
    obtain rfl := hs.of_error
    have hout : (closing.bind fun _ => (.error e : Except (Failure τ) (Runner τ))).toOption = none := by
      cases closing <;> rfl
    rw [hout]
    constructor <;> intro x
    · have := hb.environments x
      simpa [List.filterMap_cons] using this
    · have := hb.links x
      simp only [List.filterMap_cons, List.filterMap_append, List.count_append, connected?, closed?,
        List.filterMap_nil, Option.toList_none, List.flatMap_nil, List.count_cons, List.count_nil] at this ⊢
      omega

theorem Ledger.adopt {calls added : List (PlaneCall τ)} {h : Holdings τ} (hl : h.Ledger calls)
    {settings : Settings τ} {key : SessionKey} {r : Runner τ}
    (ho : Runner.Opens settings key added (.ok r)) (hown : settings.ownsEnvironment = true) :
    (h.adopt key r).Ledger (calls ++ added) := by
  obtain ⟨henv, hlinks⟩ := opens_balanced ho hown
  simp only [Except.toOption, Option.toList_some, List.flatMap_cons, List.flatMap_nil,
    List.append_nil] at henv hlinks
  constructor
  · intro id
    have := hl.environments id
    have := henv id
    simp only [Holdings.adopt, List.filterMap_append, List.count_append, List.flatMap_append,
      List.flatMap_cons, List.flatMap_nil, List.append_nil]
    omega
  · intro l
    have := hl.links l
    have := hlinks l
    simp only [Holdings.adopt, List.filterMap_append, List.count_append, List.flatMap_append,
      List.flatMap_cons, List.flatMap_nil, List.append_nil]
    omega
  · intro i q hq hno
    simp only [Holdings.adopt, List.mem_append, List.mem_singleton, Prod.mk.injEq, not_or] at hno
    rcases Nat.lt_trichotomy i h.runners.length with hi | hi | hi
    · have hq : h.runners[i]? = some q := by
        simpa [Holdings.adopt, List.getElem?_append_left hi] using hq
      exact hl.retired hq fun k => (hno k).1
    · exact absurd ⟨rfl, hi⟩ (hno key).2
    · have hlt := (List.getElem?_eq_some_iff.mp hq).1
      simp only [Holdings.adopt, List.length_append, List.length_singleton] at hlt
      omega

theorem Ledger.unopened {calls added : List (PlaneCall τ)} {h : Holdings τ} (hl : h.Ledger calls)
    {settings : Settings τ} {key : SessionKey} {e : Failure τ}
    (ho : Runner.Opens settings key added (.error e)) (hown : settings.ownsEnvironment = true) :
    h.Ledger (calls ++ added) := by
  obtain ⟨henv, hlinks⟩ := opens_balanced ho hown
  simp only [Except.toOption, Option.toList_none, List.flatMap_nil, List.count_nil,
    Nat.add_zero] at henv hlinks
  constructor
  · intro id
    have := hl.environments id
    simp only [List.filterMap_append, List.count_append, henv id]
    omega
  · intro l
    have := hl.links l
    simp only [List.filterMap_append, List.count_append, hlinks l]
    omega
  · exact hl.retired

def Registered (h : Holdings τ) (i : Nat) (r : Runner τ) : Prop :=
  (∃ k, (k, i) ∈ h.registry) ∧ h.runners[i]? = some r

theorem Ledger.registered {calls : List (PlaneCall τ)} {h : Holdings τ} (hl : h.Ledger calls) {i : Nat}
    {r : Runner τ} (hr : h.runners[i]? = some r) (hholds : r.environment ≠ none ∨ r.closed = false) :
    h.Registered i r := by
  by_contra hno
  have hret := hl.retired hr fun k hm => hno ⟨⟨k, hm⟩, hr⟩
  rcases hholds with he | hc
  · exact he hret.2
  · simp [hret.1] at hc

theorem Ledger.mem_environments {calls : List (PlaneCall τ)} {h : Holdings τ} (hl : h.Ledger calls)
    (id : EnvironmentId) : id ∈ h.runners.flatMap (·.environment.toList) ↔
      ∃ i r, h.Registered i r ∧ r.environment = some id := by
  simp only [List.mem_flatMap, Option.mem_toList]
  constructor
  · rintro ⟨r, hm, he⟩
    obtain ⟨i, hr⟩ := List.getElem?_of_mem hm
    exact ⟨i, r, hl.registered hr (.inl (by simp [he])), he⟩
  · rintro ⟨i, r, hreg, he⟩
    exact ⟨r, List.mem_of_getElem? hreg.2, he⟩

theorem Ledger.mem_links {plane : ControlPlane ω τ} {settings : Settings τ}
    {calls : List (PlaneCall τ)} {h : Holdings τ} (hl : h.Ledger calls)
    (hs : h.Sound plane settings) (l : Link) : l ∈ h.runners.flatMap Runner.openLink ↔
      ∃ i r, h.Registered i r ∧ r.link = l := by
  simp only [List.mem_flatMap, Runner.openLink]
  constructor
  · rintro ⟨r, hm, hlink⟩
    obtain ⟨i, hr⟩ := List.getElem?_of_mem hm
    cases hc : r.closed with
    | true => simp [hc] at hlink
    | false => exact ⟨i, r, hl.registered hr (.inr hc), by simpa [hc, eq_comm] using hlink⟩
  · rintro ⟨i, r, ⟨⟨k, hm⟩, hr⟩, rfl⟩
    obtain ⟨q, hq, _, _, hc⟩ := hs.runner hm
    cases hr.symm.trans hq
    exact ⟨r, List.mem_of_getElem? hr, by simp [hc]⟩

variable [Seconds τ] {plane : ControlPlane ω τ} {settings : Settings τ}

theorem Step.ledger {calls added : List (PlaneCall τ)} {h h' : Holdings τ}
    (hstep : h.Step settings added h') (hs : h.Sound plane settings)
    (hown : settings.ownsEnvironment = true) (hl : h.Ledger calls) : h'.Ledger (calls ++ added) := by
  cases hstep with
  | acquired ha =>
    cases ha with
    | found | refused => simpa using hl
    | unopened _ ho => exact hl.unopened ho hown
    | opened _ _ _ ho => exact hl.adopt ho hown
  | @released key _ _ _ hr =>
    cases hr with
    | absent => simpa using hl
    | @released i r _ r' _ _ hlook hr hc _ =>
      obtain ⟨k, hm, hk⟩ := Value.mem_of_lookUp hlook
      obtain ⟨q, hq, _, hset, hclosed⟩ := hs.runner hm
      cases hr.symm.trans hq
      obtain ⟨hb, hret⟩ := hc.balanced (by simpa [Runner.owns, hset] using hown) hclosed
      refine hl.put hr hb (fun _ => hret) fun j hj hno k' hm' => ?_
      -- Another number that is registered no more was under the released key as well.
      have hgone : (k', j) ∉ (h.drop key).registry := hno k'
      simp only [drop, List.mem_filter, hm', Bool.not_eq_true', true_and, Bool.not_eq_false] at hgone
      have h₁ := hs.keyed.lookUp_of_mem hm' hgone
      exact hj (Option.some.inj (h₁.symm.trans hlook))
  | @acted k i r _ r' hm hr ha =>
    obtain ⟨q, hq, _, hset, _⟩ := hs.runner hm
    cases hr.symm.trans hq
    have hb := ha.balanced (by simpa [Runner.owns, hset] using hown)
    exact hl.put hr hb (fun hno => absurd hm (hno k)) fun j _ hno => hno

theorem Steps.ledger {calls added : List (PlaneCall τ)} {h h' : Holdings τ}
    (hsteps : h.Steps settings added h') (hp : plane.Legible settings) (hs : h.Sound plane settings)
    (hown : settings.ownsEnvironment = true) (hl : h.Ledger calls) : h'.Ledger (calls ++ added) := by
  induction hsteps with
  | refl => simpa using hl
  | tail first last ih =>
    rw [← List.append_assoc]
    exact last.ledger (first.sound hp hs) hown ih

end Holdings

theorem index_unique_of_nodup_flatMap {α β : Type} {f : α → List β} {l : List α}
    (h : (l.flatMap f).Nodup) {i j : Nat} {a b : α} {x : β} (hi : l[i]? = some a) (hj : l[j]? = some b)
    (ha : x ∈ f a) (hb : x ∈ f b) : i = j := by
  have hpair := List.pairwise_iff_getElem.mp (List.nodup_flatMap.mp h).2
  obtain ⟨hil, rfl⟩ := List.getElem?_eq_some_iff.mp hi
  obtain ⟨hjl, rfl⟩ := List.getElem?_eq_some_iff.mp hj
  rcases Nat.lt_trichotomy i j with hlt | heq | hgt
  · exact (hpair i j hil hjl hlt ha hb).elim
  · exact heq
  · exact (hpair j i hjl hil hgt hb ha).elim

theorem parts_of_count {α : Type} [DecidableEq α] {made gone held : List α}
    (h : ∀ a, made.count a = gone.count a + held.count a) (hn : made.Nodup) :
    gone.Nodup ∧ held.Nodup ∧ gone ⊆ made ∧ ∀ a, a ∈ made ∧ a ∉ gone ↔ a ∈ held := by
  have hperm : made.Perm (gone ++ held) := by
    rw [List.perm_iff_count]
    intro a
    rw [List.count_append, h]
  obtain ⟨hg, hh, hdisj⟩ := List.nodup_append.mp (hperm.nodup_iff.mp hn)
  refine ⟨hg, hh, fun a ha => hperm.mem_iff.mpr (List.mem_append_left _ ha), fun a => ?_⟩
  rw [hperm.mem_iff, List.mem_append]
  constructor
  · rintro ⟨ha | ha, hng⟩
    · exact absurd ha hng
    · exact ha
  · intro ha
    exact ⟨.inr ha, fun hga => hdisj a hga a ha rfl⟩

variable [Seconds τ] [Clock ω τ] {plane : ControlPlane ω τ} {settings : Settings τ}

theorem history_ledger (hp : plane.Legible settings) (hown : settings.ownsEnvironment = true)
    (e : Engine τ) (env : Env ω τ) (ops : List (Operation ω τ)) :
    (history plane settings e env ops).holdings.Ledger
      (history plane settings e env ops).env.world.calls := by
  have h := (history_steps (e := e) hp env ops).ledger hp .empty hown .empty
  rw [List.nil_append] at h
  exact h

theorem history_shutdown (hp : plane.Legible settings) (e : Engine τ) (env : Env ω τ)
    (ops : List (Operation ω τ)) : (history plane settings e env (ops ++ [.shutdown])).registry = [] := by
  have hlast : history plane settings e env (ops ++ [.shutdown]) =
      Operation.shutdown.perform plane settings e (history plane settings e env ops) := List.foldl_append
  obtain ⟨added, _, _, hempty⟩ := Pool.shutdown_does (history_sound (e := e) hp env ops)
  rw [hlast]
  exact hempty

/-- However the calls to the control plane end: no environment is removed twice, and those that are not
removed are what the registered runners have, each its own; no connection is closed twice, and those that
are not closed are the registered runners'. A shutdown leaves nothing, whether or not it fails. -/
theorem environments_accounted (hp : plane.Legible settings) (hown : settings.ownsEnvironment = true)
    (e : Engine τ) (env : Env ω τ) (ops : List (Operation ω τ)) :
    let s := history plane settings e env ops
    let created := s.env.world.calls.filterMap created?
    let removed := s.env.world.calls.filterMap removed?
    let connected := s.env.world.calls.filterMap connected?
    let closed := s.env.world.calls.filterMap closed?
    (created.Nodup → removed.Nodup ∧ removed ⊆ created ∧
      (∀ id, id ∈ created ∧ id ∉ removed ↔ ∃ i r, s.holdings.Registered i r ∧ r.environment = some id) ∧
      ∀ i j r q id, s.holdings.Registered i r → s.holdings.Registered j q →
        r.environment = some id → q.environment = some id → i = j) ∧
    (connected.Nodup → closed.Nodup ∧ closed ⊆ connected ∧
      ∀ l, l ∈ connected ∧ l ∉ closed ↔ ∃ i r, s.holdings.Registered i r ∧ r.link = l) ∧
    ∀ before, ops = before ++ [.shutdown] →
      (created.Nodup → ∀ id ∈ created, removed.count id = 1) ∧
      (connected.Nodup → ∀ l ∈ connected, closed.count l = 1) := by
  intro s created removed connected closed
  have hl : s.holdings.Ledger s.env.world.calls := history_ledger hp hown e env ops
  have hs : s.holdings.Sound plane settings := history_sound hp env ops
  refine ⟨fun hn => ?_, fun hn => ?_, ?_⟩
  · obtain ⟨hgone, hheld, hsub, hmem⟩ := parts_of_count hl.environments hn
    refine ⟨hgone, hsub, fun id => (hmem id).trans (hl.mem_environments id), ?_⟩
    intro i j r q id hr hq hid hid'
    exact index_unique_of_nodup_flatMap (x := id) hheld hr.2 hq.2 (by simp [hid]) (by simp [hid'])
  · obtain ⟨hgone, _, hsub, hmem⟩ := parts_of_count hl.links hn
    exact ⟨hgone, hsub, fun l => (hmem l).trans (hl.mem_links hs l)⟩
  · rintro before rfl
    have hnone : ∀ {i r}, ¬ s.holdings.Registered i r := by
      rintro i r ⟨⟨k, hm⟩, _⟩
      have hempty : s.registry = [] := history_shutdown hp e env before
      exact absurd (hempty ▸ hm : (k, i) ∈ []) List.not_mem_nil
    constructor
    · intro hn id hid
      obtain ⟨hgone, _, _, hmem⟩ := parts_of_count hl.environments hn
      refine List.count_eq_one_of_mem hgone ?_
      by_contra hleft
      obtain ⟨i, r, hreg, _⟩ := (hl.mem_environments id).mp ((hmem id).mp ⟨hid, hleft⟩)
      exact hnone hreg
    · intro hn l hlink
      obtain ⟨hgone, _, _, hmem⟩ := parts_of_count hl.links hn
      refine List.count_eq_one_of_mem hgone ?_
      by_contra hleft
      obtain ⟨i, r, hreg, _⟩ := (hl.mem_links hs l).mp ((hmem l).mp ⟨hlink, hleft⟩)
      exact hnone hreg

theorem environments_accounted_shutdown :
    let w : Script :=
      { execs := [.error (.timeout (Double.ofInt 1))]
        removal := .error (.controlPlane "busy" none) }
    let ops : List (Operation Script Double) :=
      [.execute Script.submission, .outside fun w => { w with running := false },
        .execute Script.submission, .acquire (.text "other"), .shutdown]
    let calls := (Script.site (Script.engine false) w ops).env.world.calls
    calls.filterMap created? = [0, 1, 2].map Script.environmentId ∧
      (∀ id ∈ calls.filterMap created?, (calls.filterMap removed?).count id = 1) ∧
      ∀ l ∈ calls.filterMap connected?, (calls.filterMap closed?).count l = 1 := by
  unfold Script.site
  intro w ops calls
  obtain ⟨_, _, hdone⟩ := environments_accounted Script.legible rfl (Script.engine false) { world := w } ops
  obtain ⟨henv, hlinks⟩ := hdone (ops.take 4) rfl
  exact ⟨by decide +kernel, henv (by decide +kernel), hlinks (by decide +kernel)⟩

end Playpen
