import Playpen.Proofs.Engine.Rest
import Playpen.Proofs.Plane.Scripted
import Playpen.Proofs.Pool.Alone

namespace Playpen

open Act (Preserves)

variable {ω τ : Type}

def Site.Undisturbed (s s' : Site ω τ) : Prop :=
  s'.runners = s.runners ∧ ∃ notes, s'.env = { s.env with log := s.env.log ++ notes }

inductive Closings (plane : ControlPlane ω τ) :
    List Nat → Site ω τ → List (Except (Failure τ) Unit) → Site ω τ → Prop
  | done {s s'} (h : s.Undisturbed s') : Closings plane [] s [] s'
  | next {i rest s s₁ out s₂ outs s'} (h : s.Undisturbed s₁)
      (hclose : Site.withRunner i (Runner.close plane) s₁ = (out, s₂)) (hrest : Closings plane rest s₂ outs s') :
      Closings plane (i :: rest) s (out :: outs) s'

namespace Closings

def failure? {ε : Type} : Except ε Unit → Option ε
  | .error e => some e
  | .ok _ => none

def lastFailure {ε : Type} (outs : List (Except ε Unit)) : Option ε := outs.reverse.findSome? failure?

section

variable {ε : Type} {out : Except ε Unit} {outs : List (Except ε Unit)} {e : ε}

theorem failure?_eq_some_iff : failure? out = some e ↔ out = .error e := by
  cases out <;> simp [failure?]

theorem failure?_eq_none_iff : failure? out = none ↔ out = .ok () := by
  cases out <;> simp [failure?]

theorem lastFailure_cons : lastFailure (out :: outs) = (lastFailure outs).or (failure? out) := by
  rw [lastFailure, List.reverse_cons, List.findSome?_append, List.findSome?_singleton]
  rfl

theorem lastFailure_eq_none_iff : lastFailure outs = none ↔ ∀ out ∈ outs, out = .ok () := by
  rw [lastFailure, List.findSome?_eq_none_iff]
  simp only [List.mem_reverse, failure?_eq_none_iff]

theorem lastFailure_eq_some_iff :
    lastFailure outs = some e ↔
      ∃ before after, outs = before ++ .error e :: after ∧ ∀ out ∈ after, out = .ok () := by
  rw [lastFailure, List.findSome?_eq_some_iff]
  constructor
  · rintro ⟨after, out, before, hsplit, hout, hafter⟩
    rw [failure?_eq_some_iff] at hout
    refine ⟨before.reverse, after.reverse, ?_, ?_⟩
    · rw [← List.reverse_reverse outs, hsplit, hout]
      simp
    · intro reply hreply
      exact failure?_eq_none_iff.mp (hafter reply (List.mem_reverse.mp hreply))
  · rintro ⟨before, after, rfl, hafter⟩
    refine ⟨after.reverse, .error e, before.reverse, by simp, rfl, ?_⟩
    intro reply hreply
    exact failure?_eq_none_iff.mpr (hafter reply (List.mem_reverse.mp hreply))

end

end Closings

namespace Site.Undisturbed

variable {s s' s'' : Site ω τ}

theorem refl (s : Site ω τ) : s.Undisturbed s := ⟨rfl, [], by rw [List.append_nil]⟩

theorem trans (h : s.Undisturbed s') (h' : s'.Undisturbed s'') : s.Undisturbed s'' := by
  obtain ⟨hrunners, notes, henv⟩ := h
  obtain ⟨hrunners', notes', henv'⟩ := h'
  refine ⟨hrunners'.trans hrunners, notes ++ notes', ?_⟩
  rw [henv', henv, List.append_assoc]

theorem tables (hrunners : s'.runners = s.runners) (henv : s'.env = s.env) : s.Undisturbed s' :=
  ⟨hrunners, [], by rw [henv, List.append_nil]⟩

end Site.Undisturbed

theorem Site.noteOf_apply {key : SessionKey} {t : String} (hkey : key.display = .ok t) (level : Level)
    (message : String → String) (s : Site ω τ) :
    Site.noteOf level key message s =
      (.ok (), { s with env := { s.env with log := s.env.log ++ [⟨level, message t⟩] } }) := by
  have hmessage : key.display.map message = .ok (message t) := by rw [hkey]; rfl
  unfold Site.noteOf Site.effect Act.within
  rw [Env.noteUsing_ok level hmessage]

theorem Site.guarded_apply (key : SessionKey) {α : Type} (x : SiteAct ω τ α) {s s' : Site ω τ}
    {out : Except (Failure τ) α} (h : x { s with guards := Guards.enter key s.guards } = (out, s')) :
    Site.guarded key x s = (out, { s' with guards := Guards.leave key s'.guards }) := by
  have henter : (Act.modify fun s : Site ω τ => { s with guards := Guards.enter key s.guards } : SiteAct ω τ Unit) s =
      (.ok (), { s with guards := Guards.enter key s.guards }) := rfl
  refine (Act.bind_ok henter).trans ?_
  simp only [Act.ensure, h]
  rfl

variable {plane : ControlPlane ω τ} {s : Site ω τ}

theorem Closings.after {is : List Nat} {s₀ s' : Site ω τ} {outs : List (Except (Failure τ) Unit)}
    (h₀ : s₀.Undisturbed s) (h : Closings plane is s outs s') : Closings plane is s₀ outs s' := by
  cases h with
  | done h => exact .done (h₀.trans h)
  | next h hclose hrest => exact .next (h₀.trans h) hclose hrest

theorem Closings.before {is : List Nat} {s' s'' : Site ω τ} {outs : List (Except (Failure τ) Unit)}
    (h : Closings plane is s outs s') (h' : s'.Undisturbed s'') : Closings plane is s outs s'' := by
  induction h with
  | done h => exact .done (h.trans h')
  | next h hclose _ ih => exact .next h hclose (ih h')

theorem Runner.close_closed (plane : ControlPlane ω τ) (seat : Seat ω τ) :
    (Runner.close plane seat).2.runner.closed = true := by
  have effect {α : Type} (x : Effect ω τ α) :
      Preserves (fun seat : Seat ω τ => seat.runner.closed = true) (Seat.effect x) := fun _ h => h
  have hread : (Act.read Seat.runner : RunnerAct ω τ (Runner τ)) seat = (.ok seat.runner, seat) := rfl
  unfold Runner.close
  rw [Act.bind_ok hread]
  split
  · assumption
  · refine Preserves.bind (I := fun seat => seat.runner.closed = true) (x := fun seat => (.ok (), seat)) (fun _ h => h)
      (fun _ => Preserves.ensure ?_ (effect _)) { seat with runner := { seat.runner with closed := true } } rfl
    split
    · refine .bind (fun _ h => h) fun _ => .bind (effect _) fun _ => ?_
      exact .bind (.read _) fun _ => effect _
    · exact .pure ()

def Site.Shut (s : Site ω τ) (i : Nat) : Prop := ∃ r, s.runners[i]? = some r ∧ r.closed = true

theorem Site.shut_of_close {i : Nat} {s' : Site ω τ} {out : Except (Failure τ) Unit}
    (h : Site.withRunner i (Runner.close plane) s = (out, s')) :
    s'.runners.length = s.runners.length ∧ (i < s.runners.length → s'.Shut i) ∧ ∀ j, s.Shut j → s'.Shut j := by
  unfold Site.withRunner at h
  cases hr : s.runners[i]? with
  | none =>
    simp only [hr] at h
    cases h
    refine ⟨rfl, fun hi => ?_, fun _ h => h⟩
    rw [List.getElem?_eq_getElem hi] at hr
    cases hr
  | some r =>
    simp only [hr] at h
    cases h
    have hi : i < s.runners.length := (List.getElem?_eq_some_iff.mp hr).1
    have hclosed := Runner.close_closed plane ⟨r, s.env⟩
    refine ⟨List.length_set, fun _ => ⟨_, List.getElem?_set_self hi, hclosed⟩, ?_⟩
    rintro j ⟨q, hq, hshut⟩
    by_cases hij : i = j
    · subst hij
      exact ⟨_, List.getElem?_set_self hi, hclosed⟩
    · exact ⟨q, by rw [← hq]; exact List.getElem?_set_ne hij, hshut⟩

theorem Closings.shut {is : List Nat} {s' : Site ω τ} {outs : List (Except (Failure τ) Unit)}
    (h : Closings plane is s outs s') :
    (∀ i ∈ is, i < s.runners.length → s'.Shut i) ∧ ∀ j, s.Shut j → s'.Shut j := by
  have quiet {a b : Site ω τ} (h : a.Undisturbed b) (j : Nat) : a.Shut j → b.Shut j := by
    rintro ⟨r, hr, hshut⟩
    exact ⟨r, h.1 ▸ hr, hshut⟩
  induction h with
  | done h => exact ⟨List.forall_mem_nil _, quiet h⟩
  | next h hclose _ ih =>
    obtain ⟨hlength, hself, hother⟩ := Site.shut_of_close hclose
    rw [h.1] at hlength hself
    obtain ⟨hrest, hkeep⟩ := ih
    refine ⟨List.forall_mem_cons.mpr ⟨fun hi => hkeep _ (hself hi), ?_⟩, fun j hj => hkeep j (hother j (quiet h j hj))⟩
    intro j hj hlt
    exact hrest j hj (hlength ▸ hlt)

namespace Pool

open Closings (lastFailure failure?)

theorem filter_head {key : SessionKey} {i : Nat} {rest : List (SessionKey × Nat)}
    (hkeyed : Value.Keyed ((key, i) :: rest)) :
    ((key, i) :: rest).filter (!·.1.sameKey key) = rest := by
  have hkey : key.isKey = true := hkeyed.proper _ List.mem_cons_self
  rw [List.filter_cons_of_neg (by simp [Value.sameKey_self hkey]), List.filter_eq_self]
  intro e he
  have hother : e.1.sameKey key = false := by
    by_contra hsame
    have heq := (Value.sameKey_iff.mp (Bool.not_eq_false _ ▸ hsame)).2
    exact (List.nodup_cons.mp hkeyed.once).1 (List.mem_map.mpr ⟨e, he, heq⟩)
  rw [hother]
  rfl

theorem registered_head {key : SessionKey} {i : Nat} {rest : List (SessionKey × Nat)}
    (hregistry : s.registry = (key, i) :: rest) (hkey : key.isKey = true) :
    Site.registered key s = (.ok (some i), s) := by
  have hlook : key.lookUp s.registry = some i := by
    rw [hregistry, Value.lookUp, if_pos (Value.sameKey_self hkey)]
  rw [← hlook]
  rfl

variable (plane)

theorem retire_head {key : SessionKey} {i : Nat} {rest : List (SessionKey × Nat)} {t : String}
    (hregistry : s.registry = (key, i) :: rest) (hkeyed : Value.Keyed s.registry) (hkey : key.display = .ok t) :
    ∃ s₁ out s₂ s', s.Undisturbed s₁ ∧ Site.withRunner i (Runner.close plane) s₁ = (out, s₂) ∧
      s₂.Undisturbed s' ∧ retire plane key s = (out, s') ∧ s'.registry = rest ∧ s'.guards = s.guards := by
  have hproper : key.isKey = true := hkeyed.proper (key, i) (by rw [hregistry]; exact List.mem_cons_self)
  have hfilter : s.registry.filter (!·.1.sameKey key) = rest := by
    rw [hregistry] at hkeyed ⊢
    exact filter_head hkeyed
  let s₁ : Site ω τ := { s with registry := rest }
  have hdrop : (Act.modify fun s : Site ω τ => { s with registry := s.registry.filter (!·.1.sameKey key) } :
      SiteAct ω τ Unit) s = (.ok (), s₁) := by
    show (_, { s with registry := s.registry.filter _ }) = _
    rw [hfilter]
  obtain ⟨out, s₂, hclose⟩ : ∃ out s₂, Site.withRunner i (Runner.close plane) s₁ = (out, s₂) :=
    ⟨_, _, rfl⟩
  have hframes := Threads.Frames.withRunner i (Runner.close plane) s₁
  rw [hclose] at hframes
  unfold retire
  rw [Act.bind_ok (registered_head hregistry hproper)]
  simp only
  rw [Act.bind_ok hdrop]
  refine ⟨s₁, out, s₂, ?_⟩
  cases out with
  | error e =>
    rw [Act.bind_error hclose]
    exact ⟨s₂, .tables rfl rfl, hclose, .refl s₂, rfl, hframes⟩
  | ok u =>
    rw [Act.bind_ok hclose, Site.noteOf_apply hkey]
    refine ⟨_, .tables rfl rfl, hclose, ?_, rfl, hframes⟩
    exact ⟨rfl, _, rfl⟩

theorem release_head {key : SessionKey} {i : Nat} {rest : List (SessionKey × Nat)} {t : String}
    (hregistry : s.registry = (key, i) :: rest) (hkeyed : Value.Keyed s.registry) (hkey : key.display = .ok t)
    (hguards : s.guards = []) :
    ∃ s₁ out s₂ s', s.Undisturbed s₁ ∧ Site.withRunner i (Runner.close plane) s₁ = (out, s₂) ∧
      s₂.Undisturbed s' ∧ release plane key s = (out, s') ∧ s'.registry = rest ∧ s'.guards = [] := by
  have hproper : key.isKey = true := hkeyed.proper (key, i) (by rw [hregistry]; exact List.mem_cons_self)
  obtain ⟨s₁, out, s₂, s', hbefore, hclose, hafter, hretire, hrest, hin⟩ :=
    retire_head plane (s := { s with guards := Guards.enter key s.guards }) hregistry hkeyed hkey
  have hrelease : release plane key s = (out, { s' with guards := Guards.leave key s'.guards }) := by
    unfold release
    rw [Act.bind_ok (registered_head hregistry hproper)]
    exact Site.guarded_apply key _ hretire
  have henter : s.Undisturbed { s with guards := Guards.enter key s.guards } := .tables rfl rfl
  refine ⟨s₁, out, s₂, { s' with guards := Guards.leave key s'.guards }, henter.trans hbefore, hclose,
    hafter.trans (.tables rfl rfl), hrelease, hrest, ?_⟩
  show Guards.leave key s'.guards = []
  rw [hin, hguards]
  simp only [Guards.enter, Guards.leave, Value.sameKey_self hproper, ↓reduceIte, Nat.le_refl]

variable [Seconds τ]

theorem releaseAll_closes {keys : List (SessionKey × Nat)} (hregistry : s.registry = keys)
    (hkeyed : Value.Keyed s.registry) (hshown : ∀ e ∈ s.registry, ∃ t, e.1.display = .ok t)
    (hguards : s.guards = []) (failures : Nat) (last : Option (Failure τ)) :
    ∃ outs sum s', releaseAll plane (keys.map (·.1)) failures last s = (.ok (sum, (lastFailure outs).or last), s') ∧
      Closings plane (keys.map (·.2)) s outs s' ∧ s'.registry = [] ∧ s'.guards = [] := by
  -- What was counted so far is general, because every failure adds to it.
  induction keys generalizing s failures last with
  | nil => exact ⟨[], failures, s, rfl, .done (.refl s), hregistry, hguards⟩
  | cons e rest ih =>
    obtain ⟨key, i⟩ := e
    have hkeyed' : Value.Keyed rest := by
      rw [hregistry] at hkeyed
      rw [← filter_head hkeyed]
      exact hkeyed.filter _
    rw [hregistry] at hshown
    obtain ⟨⟨t, hkey⟩, hshown⟩ := List.forall_mem_cons.mp hshown
    obtain ⟨s₁, out, s₂, s₃, hbefore, hclose, hafter, hrelease, hrest, hunguarded⟩ :=
      release_head plane hregistry hkeyed hkey hguards
    have houtcome : (release plane key).outcome s = (.ok out, s₃) := by
      simp only [Act.outcome, hrelease]
    rw [← hrest] at hkeyed' hshown
    cases out with
    | ok u =>
      obtain ⟨outs, sum, s', hall, hclosings, hend⟩ := ih hrest hkeyed' hshown hunguarded failures last
      refine ⟨.ok u :: outs, sum, s', ?_, .next hbefore hclose (hclosings.after hafter), hend⟩
      rw [Closings.lastFailure_cons, failure?, Option.or_none, ← hall]
      exact Act.bind_ok houtcome
    | error f =>
      let note : Record := ⟨.error, s!"Failed to close runner for session '{t}': {f.message}"⟩
      let s₄ : Site ω τ := { s₃ with env := { s₃.env with log := s₃.env.log ++ [note] } }
      have hnoted : s₃.Undisturbed s₄ := ⟨rfl, [note], rfl⟩
      obtain ⟨outs, sum, s', hall, hclosings, hend⟩ :=
        ih (s := s₄) hrest hkeyed' hshown hunguarded (failures + 1) (some f)
      refine ⟨.error f :: outs, sum, s', ?_, .next hbefore hclose (hclosings.after (hafter.trans hnoted)), hend⟩
      rw [Closings.lastFailure_cons, failure?, Option.or_assoc, Option.some_or, ← hall]
      refine (Act.bind_ok houtcome).trans ?_
      exact Act.bind_ok (Site.noteOf_apply hkey .error _ s₃)

/-- A shutdown closes every registered runner once, in order; none is registered or guarded after it. It
fails as the last closing did that failed, and only if one did. -/
theorem shutdown_closes_all (plane : ControlPlane ω τ) (s : Site ω τ) (hs : s.Settled) :
    let reply := (shutdown plane s).1
    let s' := (shutdown plane s).2
    let numbers := s.registry.map (·.2)
    ∃ outs, Closings plane numbers s outs s' ∧ numbers.Nodup ∧ (∀ i ∈ numbers, s'.Shut i) ∧
      s'.registry = [] ∧ s'.guards = [] ∧ (reply = .ok () ↔ ∀ out ∈ outs, out = .ok ()) ∧
      ∀ e, reply = .error e ↔
        ∃ before after, outs = before ++ .error e :: after ∧ ∀ out ∈ after, out = .ok () := by
  intro reply s' numbers
  obtain ⟨outs, sum, s₁, hall, hclosings, hempty, hunguarded⟩ :=
    releaseAll_closes plane rfl hs.keyed (fun e he => hs.shown he) hs.unguarded 0 none
  have hend : ∃ s₂, s₁.Undisturbed s₂ ∧ s₂.registry = [] ∧ s₂.guards = [] ∧
      shutdown plane s = ((lastFailure outs).elim (.ok ()) .error, s₂) := by
    have hkeys : (Act.read fun s : Site ω τ => s.registry.map (·.1) : SiteAct ω τ _) s =
        (.ok (s.registry.map (·.1)), s) := rfl
    rw [Option.or_none] at hall
    unfold shutdown
    rw [Act.bind_ok hkeys, Act.bind_ok hall]
    cases lastFailure outs with
    | none => exact ⟨s₁, .refl s₁, hempty, hunguarded, rfl⟩
    | some e =>
      let s₂ := (Site.note .error s!"Pool shutdown finished with {sum} failure(s)" s₁).2
      exact ⟨s₂, ⟨rfl, _, rfl⟩, hempty, hunguarded, rfl⟩
  obtain ⟨s₂, hquiet, hempty, hunguarded, hrun⟩ := hend
  have hreply : reply = (lastFailure outs).elim (.ok ()) .error := congrArg Prod.fst hrun
  have hstate : s' = s₂ := congrArg Prod.snd hrun
  rw [hreply, hstate]
  refine ⟨outs, hclosings.before hquiet, hs.numbers, ?_, hempty, hunguarded, ?_, ?_⟩
  · intro i hi
    obtain ⟨e, he, rfl⟩ := List.mem_map.mp hi
    exact (hclosings.before hquiet).shut.1 _ hi (hs.built he)
  · rw [← Closings.lastFailure_eq_none_iff]
    cases lastFailure outs <;> simp
  · intro e
    rw [← Closings.lastFailure_eq_some_iff]
    cases lastFailure outs <;> simp

end Pool

def Script.frail : ControlPlane Script Double :=
  { Script.plane with
    remove := fun _ id => Script.answer fun _ =>
      match id with
      | .text "env2" => .ok ()
      | .text name => .error (.controlPlane name none)
      | _ => .ok () }

theorem Pool.shutdown_closes_all_frail :
    let s := history Script.frail Script.settings (Script.engine true) { world := {} }
      [.acquire (.text "a"), .acquire (.text "b"), .acquire (.text "c")]
    s.Settled ∧ (∃ outs, Closings Script.frail.recorded [0, 1, 2] s outs (Pool.shutdown Script.frail.recorded s).2) ∧
      (Pool.shutdown Script.frail.recorded s).1 = .error (.controlPlane "env1" none) := by
  have hlegible : Script.frail.Legible Script.settings := by
    constructor
    case image => exact Script.legible.image
    case created => exact fun {l spec _ _} => @Script.legible.created l spec _ _
    case attached => nofun
  have hnumbers : (history Script.frail Script.settings (Script.engine true) { world := {} }
      [.acquire (.text "a"), .acquire (.text "b"), .acquire (.text "c")]).registry.map (·.2) = [0, 1, 2] := by
    decide +kernel
  intro s
  have hs : s.Settled := history_settled hlegible _ _ _
  obtain ⟨outs, hclosings, _⟩ := Pool.shutdown_closes_all Script.frail.recorded s hs
  rw [hnumbers] at hclosings
  exact ⟨hs, ⟨outs, hclosings⟩, by decide +kernel⟩

end Playpen
