import Mathlib.Logic.Relation
import Playpen.Proofs.Act
import Playpen.Proofs.Pool.Ownership

namespace Playpen.Threads

open Relation (ReflTransGen)

variable {ω τ : Type}

def Next (plane : ControlPlane ω τ) (factory : RunnerFactory ω τ) (a b : Phase τ × Shared ω τ) : Prop :=
  advance plane factory a.1 a.2 = some b

def Frames {α : Type} (x : SiteAct ω τ α) : Prop :=
  ∀ s, (x s).2.registry = s.registry ∧ (x s).2.guards = s.guards

namespace Frames

variable {α β : Type}

theorem bind {x : SiteAct ω τ α} {f : α → SiteAct ω τ β} (hx : Frames x) (hf : ∀ a, Frames (f a)) :
    Frames (x >>= f) := by
  intro s
  have hs := hx s
  rcases hxs : x s with ⟨e | a, s'⟩ <;> rw [hxs] at hs
  · rw [Act.bind_error hxs]
    exact hs
  · rw [Act.bind_ok hxs]
    exact ⟨(hf a s').1.trans hs.1, (hf a s').2.trans hs.2⟩

theorem effect (x : Effect ω τ α) : Frames (Site.effect x) := fun _ => ⟨rfl, rfl⟩

theorem adopt (r : Runner τ) : Frames (Site.adopt r : SiteAct ω τ Nat) := fun _ => ⟨rfl, rfl⟩

theorem withRunner (i : Nat) (x : RunnerAct ω τ α) : Frames (Site.withRunner i x) := by
  intro s
  unfold Site.withRunner
  cases s.runners[i]? <;> exact ⟨rfl, rfl⟩

end Frames

def enrollment (key : SessionKey) (i : Nat) : SiteAct ω τ Nat := do
  Act.modify fun s => { s with registry := s.registry ++ [(key, i)] }
  pure i

theorem announcement_frames (key : SessionKey) : Frames (announcement key : SiteAct ω τ Unit) :=
  .effect _

theorem construction_frames (factory : RunnerFactory ω τ) (key : SessionKey) :
    Frames (construction factory key) :=
  .bind (.effect _) .adopt

theorem retirement_frames (plane : ControlPlane ω τ) (key : SessionKey) (i : Nat) :
    Frames (retirement plane key i) :=
  .bind (.withRunner i _) fun _ => .effect _

namespace Shared

def held (s : Shared ω τ) (key : SessionKey) : Shared ω τ :=
  { s with current := [(key, s.guards.length)], guards := s.guards ++ [⟨1, true⟩] }

def freed (s s' : Shared ω τ) : Shared ω τ :=
  { s' with current := [], guards := s.guards ++ [⟨0, false⟩] }

theorem site_held (s : Shared ω τ) (key : SessionKey) :
    (s.held key).site = { s.site with guards := [(key, 1)] } := by
  simp [site, held, users]

theorem site_rest {s : Shared ω τ} (h : s.current = []) : s.site.guards = [] := by
  simp [site, h]

theorem site_freed (s s' : Shared ω τ) : (s.freed s').site = { s'.site with guards := [] } := rfl

theorem act_keeps {α : Type} {x : SiteAct ω τ α} {s s' : Shared ω τ} {r : Except (Failure τ) α}
    (h : s.act x = (r, s')) :
    s'.registry = s.registry ∧ s'.current = s.current ∧ s'.guards = s.guards := by
  cases h
  exact ⟨rfl, rfl, rfl⟩

theorem act_site {α : Type} {x : SiteAct ω τ α} (hx : Frames x) (s : Shared ω τ) :
    x s.site = ((s.act x).1, (s.act x).2.site) := by
  obtain ⟨hregistry, hguards⟩ := hx s.site
  rcases hxs : x s.site with ⟨r, site⟩
  rw [hxs] at hregistry hguards
  simp only [act, hxs, Prod.mk.injEq, true_and]
  cases site
  cases hregistry
  cases hguards
  rfl

end Shared

theorem Guarded.rest {s : State ω τ} (h : Guarded s) (hidle : ∀ p ∈ s.threads, p = .idle) :
    s.current = [] := by
  by_contra hne
  obtain ⟨⟨k, g⟩, hm⟩ := List.exists_mem_of_ne_nil _ hne
  have hpos : 0 < s.threads.countP (Phase.uses g) := h.users hm ▸ h.used hm
  obtain ⟨p, hp, hu⟩ := List.countP_pos_iff.mp hpos
  rw [hidle p hp] at hu
  cases hu

section

variable {plane : ControlPlane ω τ} {factory : RunnerFactory ω τ} {s : Shared ω τ} {key : SessionKey}

theorem enters (h : s.current = []) (task : Task) :
    ReflTransGen (Next plane factory) (.entering task key, s)
      (.checking task key s.guards.length, s.held key) := by
  have henter : s.enter key = (s.guards.length, { s with
      current := [(key, s.guards.length)], guards := s.guards ++ [⟨1, false⟩] }) := by
    simp [Shared.enter, h, Value.lookUp]
  refine .tail (.single (b := (.waiting task key s.guards.length, (s.enter key).2)) ?_) ?_
  · simp [Next, advance, henter]
  · simp [Next, advance, henter, Shared.isTaken, Shared.setGuard, Shared.held, List.modify_eq_set_getElem?]

theorem leaves (hk : key.isKey = true) {s' : Shared ω τ} (hc : s'.current = (s.held key).current)
    (hg : s'.guards = (s.held key).guards) (reply : Reply τ) :
    ReflTransGen (Next plane factory) (.unlocking key s.guards.length reply, s')
      (.returning key reply, s.freed s') := by
  refine .tail (.single (b := (.leaving key s.guards.length reply,
    { s' with guards := s.guards ++ [⟨1, false⟩] })) ?_) ?_
  · simp [Next, advance, Shared.setGuard, hg, Shared.held, List.modify_eq_set_getElem?]
  · simp [Next, advance, Shared.leave, Shared.setGuard, Shared.users, hc, Shared.held, Shared.freed,
      List.modify_eq_set_getElem?, Value.lookUp, Value.sameKey_self hk]
    rfl

theorem enclosed {α : Type} {x : SiteAct ω τ α} {f : α → Option Nat} {task : Task}
    (hk : key.isKey = true) (h : s.current = []) {reply : Except (Failure τ) α} {s' : Shared ω τ}
    (hc : s'.current = (s.held key).current) (hg : s'.guards = (s.held key).guards)
    (hx : x (s.held key).site = (reply, s'.site))
    (hrun : ReflTransGen (Next plane factory) (.checking task key s.guards.length, s.held key)
      (.unlocking key s.guards.length (reply.map f), s')) :
    Site.guarded key x s.site = (reply, (s.freed s').site) ∧
      ReflTransGen (Next plane factory) (.entering task key, s) (.returning key (reply.map f), s.freed s') := by
  constructor
  · have henter : { s.site with guards := Guards.enter key s.site.guards } = (s.held key).site := by
      rw [Shared.site_held, Shared.site_rest h]
      rfl
    have hleave : Guards.leave key s'.site.guards = [] := by
      have : s'.site.guards = (s.held key).site.guards := by simp [Shared.site, Shared.users, hc, hg]
      rw [this, Shared.site_held]
      simp [Guards.leave, Value.sameKey_self hk]
    have hguarded : Site.guarded key x s.site =
        x.ensure (Act.modify fun t => { t with guards := Guards.leave key t.guards }) (s.held key).site := by
      rw [← henter]
      exact Act.bind_ok rfl
    rw [hguarded, Shared.site_freed, ← hleave]
    simp only [Act.ensure, hx, Act.modify]
  · exact ((enters h task).trans hrun).trans (leaves hk hc hg _)

theorem registered_apply (site : Site ω τ) {o : Option Nat} (h : key.lookUp site.registry = o) :
    Site.registered key site = (.ok o, site) := by
  subst h
  rfl

theorem build_eq (site : Site ω τ) (hl : key.lookUp site.registry = none) :
    Pool.build factory key site =
      (announcement key >>= fun _ => construction factory key >>= enrollment key) site := by
  unfold Pool.build
  rw [Act.bind_ok (registered_apply site hl)]
  unfold construction
  rw [bind_assoc]
  rfl

theorem builds (plane : ControlPlane ω τ) (factory : RunnerFactory ω τ)
    (hl : key.lookUp s.registry = none) (g : Nat) :
    ∃ reply s', Pool.build factory key s.site = (reply, s'.site) ∧
      s'.current = s.current ∧ s'.guards = s.guards ∧
      ReflTransGen (Next plane factory) (.checking .acquire key g, s)
        (.unlocking key g (reply.map some), s') := by
  rw [build_eq s.site hl]
  have hcheck : Next plane factory (.checking .acquire key g, s) (.announcing key g, s) := by
    simp [Next, advance, hl]
  have hfirst := Shared.act_site (announcement_frames key) s
  rcases hact₁ : s.act (announcement key) with ⟨e | u, s₁⟩ <;> rw [hact₁] at hfirst
  · obtain ⟨_, hc, hg⟩ := Shared.act_keeps hact₁
    refine ⟨.error e, s₁, by rw [Act.bind_error hfirst], hc, hg, .tail (.single hcheck) ?_⟩
    simp [Next, advance, hact₁, Except.map]
  obtain ⟨hr₁, hc₁, hg₁⟩ := Shared.act_keeps hact₁
  have hannounce : Next plane factory (.announcing key g, s) (.building key g, s₁) := by
    simp [Next, advance, hact₁]
  have hsecond := Shared.act_site (construction_frames factory key) s₁
  rcases hact₂ : s₁.act (construction factory key) with ⟨e | i, s₂⟩ <;> rw [hact₂] at hsecond
  · obtain ⟨_, hc, hg⟩ := Shared.act_keeps hact₂
    refine ⟨.error e, s₂, by rw [Act.bind_ok hfirst, Act.bind_error hsecond], hc.trans hc₁, hg.trans hg₁,
      .tail (.tail (.single hcheck) hannounce) ?_⟩
    simp [Next, advance, hact₂, Except.map]
  obtain ⟨hr₂, hc₂, hg₂⟩ := Shared.act_keeps hact₂
  have habsent : key.lookUp s₂.registry = none := by rw [hr₂, hr₁, hl]
  have hbuilt : Next plane factory (.building key g, s₁)
      (.registering key g i, { s₂ with builtFor := s₂.builtFor ++ [key] }) := by
    simp [Next, advance, hact₂]
  refine ⟨.ok i, { s₂ with builtFor := s₂.builtFor ++ [key], registry := register key i s₂.registry },
    ?_, hc₂.trans hc₁, hg₂.trans hg₁, .tail (.tail (.tail (.single hcheck) hannounce) hbuilt) rfl⟩
  rw [Act.bind_ok hfirst, Act.bind_ok hsecond, register_of_absent habsent]
  rfl

theorem retires (plane : ControlPlane ω τ) (factory : RunnerFactory ω τ) {i : Nat}
    (hl : key.lookUp s.registry = some i) (g : Nat) :
    ∃ reply s', Pool.retire plane key s.site = (reply, s'.site) ∧
      s'.current = s.current ∧ s'.guards = s.guards ∧
      ReflTransGen (Next plane factory) (.checking .release key g, s)
        (.unlocking key g (reply.map fun _ => none), s') := by
  let s₁ : Shared ω τ := { s with registry := s.registry.filter (!·.1.sameKey key) }
  let s₂ : Shared ω τ := { s₁ with closings := s.closings ++ [i] }
  have hretire : Pool.retire plane key s.site = retirement plane key i s₂.site := by
    unfold Pool.retire
    rw [Act.bind_ok (registered_apply s.site hl)]
    exact Act.bind_ok rfl
  have hsite := Shared.act_site (retirement_frames plane key i) s₂
  obtain ⟨_, hc, hg⟩ := Shared.act_keeps (show s₂.act (retirement plane key i) = (_, _) from rfl)
  have hremove : Next plane factory (.checking .release key g, s) (.retiring key g i, s₁) := by
    simp [Next, advance, hl, s₁]
  have hbegin : Next plane factory (.retiring key g i, s₁) (.closing key g i, s₂) := rfl
  refine ⟨_, _, hretire.trans hsite, hc, hg, .tail (.tail (.single hremove) hbegin) ?_⟩
  rfl

theorem acquire_alone (plane : ControlPlane ω τ) (factory : RunnerFactory ω τ) {s : State ω τ}
    (hg : Guarded s) (hidle : ∀ p ∈ s.threads, p = .idle) (hk : key.isKey = true) :
    ∃ reply s', Pool.acquire factory key s.site = (reply, s'.site) ∧ s'.current = [] ∧
      ReflTransGen (Next plane factory) (.looking .acquire key, s.toShared)
        (.returning key (reply.map some), s') := by
  have h := hg.rest hidle
  cases hl : key.lookUp s.registry with
  | some i =>
    refine ⟨.ok i, s.toShared, Act.bind_ok (registered_apply s.site hl), h, .single ?_⟩
    simp [Next, advance, hl, Except.map]
  | none =>
    obtain ⟨reply, s', hbuild, hc, hg, hrun⟩ := builds plane factory (s := s.held key) hl s.guards.length
    obtain ⟨hsite, hrun⟩ := enclosed hk h hc hg hbuild hrun
    refine ⟨reply, s.freed s', (Act.bind_ok (registered_apply s.site hl)).trans hsite, rfl, .head ?_ hrun⟩
    simp [Next, advance, hl]

theorem release_alone (plane : ControlPlane ω τ) (factory : RunnerFactory ω τ) {s : State ω τ}
    (hg : Guarded s) (hidle : ∀ p ∈ s.threads, p = .idle) (hk : key.isKey = true) :
    ∃ reply s', Pool.release plane key s.site = (reply, s'.site) ∧ s'.current = [] ∧
      ReflTransGen (Next plane factory) (.looking .release key, s.toShared)
        (.returning key (reply.map fun _ => none), s') := by
  have h := hg.rest hidle
  cases hl : key.lookUp s.registry with
  | none =>
    refine ⟨.ok (), s.toShared, Act.bind_ok (registered_apply s.site hl), h, .single ?_⟩
    simp [Next, advance, hl, Except.map]
  | some i =>
    obtain ⟨reply, s', hretire, hc, hg, hrun⟩ := retires plane factory (s := s.held key) hl s.guards.length
    obtain ⟨hsite, hrun⟩ := enclosed hk h hc hg hretire hrun
    refine ⟨reply, s.freed s', (Act.bind_ok (registered_apply s.site hl)).trans hsite, rfl, .head ?_ hrun⟩
    simp [Next, advance, hl]

end

end Playpen.Threads
