import Playpen.Proofs.Keys
import Playpen.Proofs.Runner.Operations

namespace Playpen

open Act (Does)
open Value (Keyed)

variable {ω τ α : Type}

structure Holdings (τ : Type) where
  runners : List (Runner τ) := []
  registry : List (SessionKey × Nat) := []

def Site.holdings (s : Site ω τ) : Holdings τ := ⟨s.runners, s.registry⟩

namespace Holdings

def put (h : Holdings τ) (i : Nat) (r : Runner τ) : Holdings τ := { h with runners := h.runners.set i r }

theorem put_put (h : Holdings τ) (i : Nat) (r r' : Runner τ) : (h.put i r).put i r' = h.put i r' := by
  simp [put]

theorem getElem?_put {h : Holdings τ} {i : Nat} {r : Runner τ} (hr : h.runners[i]? = some r)
    (r' : Runner τ) : (h.put i r').runners[i]? = some r' := by
  simp [put, (List.getElem?_eq_some_iff.mp hr).1]

def adopt (h : Holdings τ) (key : SessionKey) (r : Runner τ) : Holdings τ where
  runners := h.runners ++ [r]
  registry := h.registry ++ [(key, h.runners.length)]

def drop (h : Holdings τ) (key : SessionKey) : Holdings τ :=
  { h with registry := h.registry.filter (!·.1.sameKey key) }

structure Sound (plane : ControlPlane ω τ) (settings : Settings τ) (h : Holdings τ) : Prop where
  keyed : Keyed h.registry
  numbers : (h.registry.map (·.2)).Nodup
  shown {k : SessionKey} {i : Nat} : (k, i) ∈ h.registry → ∃ t, k.display = .ok t
  runner {k : SessionKey} {i : Nat} : (k, i) ∈ h.registry → ∃ r, h.runners[i]? = some r ∧
    r.Legible plane ∧ r.settings = settings ∧ r.closed = false

theorem Sound.put {plane : ControlPlane ω τ} {settings : Settings τ} {h : Holdings τ}
    (hs : h.Sound plane settings) {i : Nat} {r r' : Runner τ} (hr : h.runners[i]? = some r)
    (hk : Runner.Keeps r r') (hl : r'.Legible plane) : (h.put i r').Sound plane settings where
  keyed := hs.keyed
  numbers := hs.numbers
  shown := hs.shown
  runner {k j} hm := by
    obtain ⟨q, hq, hlq, hsq, hcq⟩ := hs.runner hm
    by_cases hij : i = j
    · subst hij
      cases hr.symm.trans hq
      exact ⟨r', by simp [Holdings.put, (List.getElem?_eq_some_iff.mp hr).1], hl, hk.settings.trans hsq,
        hk.closed.trans hcq⟩
    · exact ⟨q, by simpa [Holdings.put, hij] using hq, hlq, hsq, hcq⟩

theorem Sound.drop {plane : ControlPlane ω τ} {settings : Settings τ} {h : Holdings τ}
    (hs : h.Sound plane settings) (key : SessionKey) {i : Nat} (hl : key.lookUp h.registry = some i)
    (r : Runner τ) : ((h.drop key).put i r).Sound plane settings where
  keyed := hs.keyed.filter _
  numbers := (List.Sublist.map _ List.filter_sublist).nodup hs.numbers
  shown hm := hs.shown (List.mem_filter.mp hm).1
  runner {k j} hm := by
    obtain ⟨hm, hk⟩ := List.mem_filter.mp hm
    obtain ⟨q, hq, hrest⟩ := hs.runner hm
    obtain ⟨k', hm', hk'⟩ := Value.mem_of_lookUp hl
    have hij : i ≠ j := by
      rintro rfl
      have heq := List.inj_on_of_nodup_map hs.numbers hm hm' rfl
      simp only [Prod.mk.injEq, and_true] at heq
      simp [heq, hk'] at hk
    exact ⟨q, by simpa [Holdings.put, Holdings.drop, hij] using hq, hrest⟩

theorem Sound.adopt {plane : ControlPlane ω τ} {settings : Settings τ} {h : Holdings τ}
    (hs : h.Sound plane settings) {key : SessionKey} (hk : key.isKey = true)
    (hd : ∃ t, key.display = .ok t) (hn : key.lookUp h.registry = none) {r : Runner τ}
    (hl : r.Legible plane) (hsr : r.settings = settings) (hc : r.closed = false) :
    (h.adopt key r).Sound plane settings := by
  have hold : ∀ {k : SessionKey} {i : Nat}, (k, i) ∈ h.registry → i < h.runners.length := by
    intro k i hm
    obtain ⟨q, hq, _⟩ := hs.runner hm
    exact (List.getElem?_eq_some_iff.mp hq).1
  constructor
  case keyed => exact hs.keyed.append hk hn
  case numbers =>
    show ((h.registry ++ [(key, h.runners.length)]).map (·.2)).Nodup
    rw [List.map_append, List.nodup_append]
    refine ⟨hs.numbers, by simp, ?_⟩
    intro a ha b hb
    obtain ⟨e, he, rfl⟩ := List.mem_map.mp ha
    obtain rfl : b = h.runners.length := by simpa using hb
    exact Nat.ne_of_lt (hold he)
  case shown =>
    intro k i hm
    rcases List.mem_append.mp hm with hm | hm
    · exact hs.shown hm
    · simp only [List.mem_singleton, Prod.mk.injEq] at hm
      exact hm.1 ▸ hd
  case runner =>
    intro k i hm
    show ∃ q, (h.runners ++ [r])[i]? = some q ∧ _
    rcases List.mem_append.mp hm with hm | hm
    · obtain ⟨q, hq, hrest⟩ := hs.runner hm
      exact ⟨q, by rw [List.getElem?_append_left (hold hm)]; exact hq, hrest⟩
    · simp only [List.mem_singleton, Prod.mk.injEq] at hm
      exact ⟨r, by simp [hm.2], hl, hsr, hc⟩

inductive Acquires (settings : Settings τ) (key : SessionKey) (h : Holdings τ) :
    List (PlaneCall τ) → Holdings τ → Except (Failure τ) Nat → Prop
  | found {i} (hl : key.lookUp h.registry = some i) : Acquires settings key h [] h (.ok i)
  | refused (e) : Acquires settings key h [] h (.error e)
  | unopened {added e} (hl : key.lookUp h.registry = none)
      (ho : Runner.Opens settings key added (.error e)) : Acquires settings key h added h (.error e)
  | opened {added r} (hl : key.lookUp h.registry = none) (hk : key.isKey = true)
      (hd : ∃ t, key.display = .ok t) (ho : Runner.Opens settings key added (.ok r)) :
      Acquires settings key h added (h.adopt key r) (.ok h.runners.length)

inductive Releases (key : SessionKey) (h : Holdings τ) :
    List (PlaneCall τ) → Holdings τ → Except (Failure τ) Unit → Prop
  | absent (hl : key.lookUp h.registry = none) : Releases key h [] h (.ok ())
  | released {i r added r' out reply} (hl : key.lookUp h.registry = some i)
      (hr : h.runners[i]? = some r) (hc : Runner.Closes r added r' out)
      (hd : (∃ t, key.display = .ok t) → reply = out) :
      Releases key h added ((h.drop key).put i r') reply

theorem Acquires.sound {plane : ControlPlane ω τ} {settings : Settings τ} {key : SessionKey}
    {h h' : Holdings τ} {added : List (PlaneCall τ)} {out : Except (Failure τ) Nat}
    (ha : h.Acquires settings key added h' out) (hp : plane.Legible settings)
    (hs : h.Sound plane settings) : h'.Sound plane settings := by
  cases ha with
  | found | refused | unopened => exact hs
  | @opened _ r hl hk hd ho =>
    obtain ⟨link, more, _, hst⟩ := ho.starts
    have hlegible : r.Legible plane := hst.legible ⟨hd, hp, fun h => by cases h⟩
    exact hs.adopt hk hd hl hlegible hst.keeps.settings hst.keeps.closed

theorem Releases.sound {plane : ControlPlane ω τ} {settings : Settings τ} {key : SessionKey}
    {h h' : Holdings τ} {added : List (PlaneCall τ)} {out : Except (Failure τ) Unit}
    (hr : h.Releases key added h' out) (hs : h.Sound plane settings) : h'.Sound plane settings := by
  cases hr with
  | absent => exact hs
  | released hl _ _ _ => exact hs.drop key hl _

theorem Releases.registry {key : SessionKey} {h h' : Holdings τ} {added : List (PlaneCall τ)}
    {out : Except (Failure τ) Unit} (hr : h.Releases key added h' out) :
    h'.registry = (h.drop key).registry := by
  cases hr with
  | absent hl =>
    refine (List.filter_eq_self.mpr fun e he => ?_).symm
    simpa using Value.lookUp_eq_none_iff.mp hl e he
  | released => rfl

inductive Step [Seconds τ] (settings : Settings τ) (h : Holdings τ) :
    List (PlaneCall τ) → Holdings τ → Prop
  | acquired {key added h' out} (ha : h.Acquires settings key added h' out) :
      Step settings h added h'
  | released {key added h' out} (hr : h.Releases key added h' out) : Step settings h added h'
  | acted {k i r added r'} (hm : (k, i) ∈ h.registry) (hr : h.runners[i]? = some r)
      (ha : r.Acts added r') : Step settings h added (h.put i r')

inductive Steps [Seconds τ] (settings : Settings τ) (h : Holdings τ) :
    List (PlaneCall τ) → Holdings τ → Prop
  | refl : Steps settings h [] h
  | tail {added h₁ more h₂} (first : Steps settings h added h₁) (last : Step settings h₁ more h₂) :
      Steps settings h (added ++ more) h₂

section

variable [Seconds τ] {settings : Settings τ} {a b c : Holdings τ} {added more : List (PlaneCall τ)}

theorem Step.steps (h : Step settings a added b) : Steps settings a added b := .tail .refl h

theorem Steps.trans (h : Steps settings a added b) (h' : Steps settings b more c) :
    Steps settings a (added ++ more) c := by
  induction h' with
  | refl => simpa using h
  | tail _ last ih => simpa using ih.tail last

theorem Step.sound {plane : ControlPlane ω τ} (h : Step settings a added b)
    (hp : plane.Legible settings) (hs : a.Sound plane settings) : b.Sound plane settings := by
  cases h with
  | acquired ha => exact ha.sound hp hs
  | released hr => exact hr.sound hs
  | acted hm hr ha =>
    obtain ⟨q, hq, hl, _⟩ := hs.runner hm
    cases hr.symm.trans hq
    exact hs.put hr ha.keeps (ha.legible hl)

theorem Steps.sound {plane : ControlPlane ω τ} (h : Steps settings a added b)
    (hp : plane.Legible settings) (hs : a.Sound plane settings) : b.Sound plane settings := by
  induction h with
  | refl => exact hs
  | tail _ last ih => exact last.sound hp ih

end

end Holdings

namespace Site

variable {s : Site (Recorded ω τ) τ}

theorem does_effect {x : Effect (Recorded ω τ) τ α}
    {post : Except (Failure τ) α → List (PlaneCall τ) → Prop}
    (h : Does x s.env fun r added _ => post r added) :
    Does (effect x) s fun r added s' => s'.holdings = s.holdings ∧ post r added :=
  .within rfl (fun _ => rfl) (h.mono fun _ _ _ hp => ⟨rfl, hp⟩)

theorem does_noteOf (level : Level) (key : SessionKey) (message : String → String) :
    Does (noteOf level key message) s fun r added s' =>
      s'.holdings = s.holdings ∧ added = [] ∧ (r = .ok () ↔ ∃ t, key.display = .ok t) := by
  refine does_effect ?_
  cases hk : key.display with
  | error m => exact .of_eq (r := .error m.failure) (t := s.env) rfl rfl ⟨rfl, by simp⟩
  | ok t => exact .of_eq (Env.noteUsing_ok _ rfl s.env) rfl ⟨rfl, by simp⟩

theorem does_withRunner {i : Nat} {r : Runner τ} {x : RunnerAct (Recorded ω τ) τ α}
    {P : Except (Failure τ) α → List (PlaneCall τ) → Runner τ → Prop}
    (hr : s.runners[i]? = some r) (hx : Does x ⟨r, s.env⟩ fun out added seat => P out added seat.runner) :
    Does (withRunner i x) s fun out added s' =>
      ∃ r', s'.holdings = s.holdings.put i r' ∧ P out added r' := by
  obtain ⟨added, hc, hp⟩ := hx
  refine ⟨added, ?_, (x ⟨r, s.env⟩).2.runner, ?_, ?_⟩ <;> simp only [withRunner, hr]
  · exact hc
  · rfl
  · exact hp

theorem does_guarded {key : SessionKey} {x : SiteAct (Recorded ω τ) τ α}
    {P : Except (Failure τ) α → List (PlaneCall τ) → Holdings τ → Prop}
    (hx : ∀ guards, Does x { s with guards } fun out added s' => P out added s'.holdings) :
    Does (guarded key x) s fun out added s' => P out added s'.holdings := by
  refine .step rfl rfl (.ensure (hx _) ?_)
  intro out added s' hp
  exact .of_eq rfl rfl (by rw [List.append_nil]; exact hp)

end Site

namespace Pool

variable {plane : ControlPlane ω τ} {settings : Settings τ} {s : Site (Recorded ω τ) τ}
  {key : SessionKey}

theorem retire_does (hs : s.holdings.Sound plane settings) :
    Does (retire plane.recorded key) s fun out added s' =>
      s.holdings.Releases key added s'.holdings out := by
  unfold retire
  refine .step (t := s) rfl rfl ?_
  cases hl : key.lookUp s.registry with
  | none =>
    simp only [hl]
    exact .pure (Holdings.Releases.absent hl)
  | some i =>
    obtain ⟨k, hm, _⟩ := Value.mem_of_lookUp hl
    obtain ⟨r, hr, hlegible, _⟩ := hs.runner hm
    simp only [hl]
    refine .step rfl rfl (.bind (Site.does_withRunner (P := fun out added r' => r.Closes added r' out)
      hr (Runner.close_does hlegible)) ?_ ?_)
    · rintro _ added s₁ ⟨r', hh, hc⟩
      refine (Site.does_noteOf .debug key _).mono ?_
      rintro out _ s₂ ⟨hh₂, rfl, hshown⟩
      rw [hh₂, hh, List.append_nil]
      exact .released hl hr hc hshown.mpr
    · rintro e added s₁ ⟨r', hh, hc⟩
      rw [hh]
      exact .released hl hr hc fun _ => rfl

theorem release_does (hs : s.holdings.Sound plane settings) (key : SessionKey) :
    Does (release plane.recorded key) s fun out added s' =>
      s.holdings.Releases key added s'.holdings out := by
  unfold release
  refine .step (t := s) rfl rfl ?_
  cases hl : key.lookUp s.registry with
  | none =>
    simp only [hl]
    exact .pure (Holdings.Releases.absent hl)
  | some i =>
    simp only [hl]
    exact Site.does_guarded (P := fun out added h => s.holdings.Releases key added h out)
      fun guards => retire_does hs

variable [Seconds τ]

theorem releaseAll_does (keys : List SessionKey)
    (hd : ∀ key ∈ keys, ∃ t, key.display = .ok t) (failures : Nat) (last : Option (Failure τ))
    (hs : s.holdings.Sound plane settings) :
    Does (releaseAll plane.recorded keys failures last) s fun out added s' =>
      (∃ r, out = .ok r) ∧ s.holdings.Steps settings added s'.holdings ∧
      ∀ e ∈ s'.registry, e ∈ s.registry ∧ ∀ key ∈ keys, e.1.sameKey key = false := by
  induction keys generalizing s failures last with
  | nil => exact .pure ⟨⟨_, rfl⟩, .refl, fun e he => ⟨he, by simp⟩⟩
  | cons key keys ih =>
    have hd' : ∀ key ∈ keys, ∃ t, key.display = .ok t := fun k hk => hd k (List.mem_cons_of_mem _ hk)
    -- What is left to do once this key is given up, in any state with the same holdings.
    have rest : ∀ {s₁ s₂ : Site (Recorded ω τ) τ} {added reply n l},
        s.holdings.Releases key added s₁.holdings reply → s₂.holdings = s₁.holdings →
        Does (releaseAll plane.recorded keys n l) s₂ fun out more s' => (∃ r, out = .ok r) ∧
          s.holdings.Steps settings (added ++ more) s'.holdings ∧
          ∀ e ∈ s'.registry, e ∈ s.registry ∧ ∀ k ∈ key :: keys, e.1.sameKey k = false := by
      intro s₁ s₂ added reply n l hr hh
      have hs₂ : s₂.holdings.Sound plane settings := hh ▸ hr.sound hs
      refine (ih hd' n l hs₂).mono ?_
      rintro out more s' ⟨hout, hsteps, hleft⟩
      refine ⟨hout, (Holdings.Step.released hr).steps.trans (hh ▸ hsteps), fun e he => ?_⟩
      obtain ⟨hm, hk⟩ := hleft e he
      have hm : e ∈ (s.holdings.drop key).registry := by
        rw [← hr.registry, ← hh]
        exact hm
      obtain ⟨hm, hkey⟩ := List.mem_filter.mp hm
      refine ⟨hm, fun k hk' => ?_⟩
      rcases List.mem_cons.mp hk' with rfl | hk'
      · simpa using hkey
      · exact hk k hk'
    unfold releaseAll
    refine .bind_of_ok (.outcome (release_does hs _)) ?_
    intro reply added s₁ hr
    cases reply with
    | ok _ => exact rest hr rfl
    | error e =>
      refine .bind (Site.does_noteOf .error key _) ?_ ?_
      · rintro _ _ s₂ ⟨hh, rfl, _⟩
        exact rest hr hh
      · rintro f _ s₂ ⟨_, _, hshown⟩
        cases hshown.mpr (hd key List.mem_cons_self)

theorem shutdown_does (hs : s.holdings.Sound plane settings) :
    Does (shutdown plane.recorded) s fun _ added s' =>
      s.holdings.Steps settings added s'.holdings ∧ s'.registry = [] := by
  have hd : ∀ key ∈ s.registry.map (·.1), ∃ t, key.display = .ok t := by
    intro key hkey
    obtain ⟨e, he, rfl⟩ := List.mem_map.mp hkey
    exact hs.shown he
  have empty : ∀ {s' : Site (Recorded ω τ) τ}, (∀ e ∈ s'.registry, e ∈ s.registry ∧
      ∀ key ∈ s.registry.map (·.1), e.1.sameKey key = false) → s'.registry = [] := by
    intro s' hleft
    refine List.eq_nil_iff_forall_not_mem.mpr fun e he => ?_
    obtain ⟨hm, hk⟩ := hleft e he
    have hself := Value.sameKey_self (hs.keyed.proper e hm)
    simp [hk e.1 (List.mem_map.mpr ⟨e, hm, rfl⟩)] at hself
  unfold shutdown
  refine .step (t := s) rfl rfl (.bind (releaseAll_does _ hd 0 none hs) ?_ ?_)
  · rintro ⟨failures, last⟩ added s₁ ⟨_, hsteps, hleft⟩
    cases last with
    | none => exact .pure ⟨by simpa using hsteps, empty hleft⟩
    | some e => exact .step rfl rfl (.throw ⟨by rw [List.append_nil]; exact hsteps, empty hleft⟩)
  · rintro e added s₁ ⟨⟨_, ⟨⟩⟩, _⟩

variable [Clock ω τ]

theorem build_does (hp : plane.Legible settings) (hk : key.isKey = true) :
    Does (build (Runner.open plane.recorded settings) key) s fun out added s' =>
      s.holdings.Acquires settings key added s'.holdings out := by
  unfold build
  refine .step (t := s) rfl rfl ?_
  cases hl : key.lookUp s.registry with
  | some i =>
    simp only [hl]
    exact .pure (Holdings.Acquires.found hl)
  | none =>
    simp only [hl]
    refine .bind (Site.does_noteOf .debug key _) ?_ ?_
    · rintro _ _ s₁ ⟨hh, rfl, hshown⟩
      refine .bind (Site.does_effect (Runner.open_does (hshown.mp rfl) hp s₁.env)) ?_ ?_
      · rintro r added s₂ ⟨hh₂, ho⟩
        refine .step rfl rfl (.step rfl rfl (.pure ?_))
        obtain ⟨hrunners, hregistry⟩ := Holdings.mk.inj (hh₂.trans hh)
        simp only [Site.holdings, hrunners, hregistry, List.append_nil, List.nil_append]
        exact .opened hl hk (hshown.mp rfl) ho
      · rintro e added s₂ ⟨hh₂, ho⟩
        rw [hh₂, hh]
        exact .unopened hl ho
    · rintro e _ s₁ ⟨hh, rfl, _⟩
      rw [hh]
      exact .refused e

theorem acquire_does (hp : plane.Legible settings) (hk : key.isKey = true) :
    Does (acquire (Runner.open plane.recorded settings) key) s fun out added s' =>
      s.holdings.Acquires settings key added s'.holdings out := by
  unfold acquire
  refine .step (t := s) rfl rfl ?_
  cases hl : key.lookUp s.registry with
  | some i =>
    simp only [hl]
    exact .pure (Holdings.Acquires.found hl)
  | none =>
    simp only [hl]
    exact Site.does_guarded (P := fun out added h => s.holdings.Acquires settings key added h out)
      fun guards => build_does hp hk

end Pool

end Playpen
