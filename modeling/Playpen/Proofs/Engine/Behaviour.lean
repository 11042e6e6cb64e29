import Playpen.Execution.Engine
import Playpen.Proofs.Pool.Behaviour

namespace Playpen

open Act (Does)

variable {ω τ : Type}

def Measures (ω : Type) [Seconds τ] [Clock ω τ] (start : τ) : Prop :=
  ∀ w : ω, ∃ ms, Seconds.millis (Seconds.sub (Clock.now w) start) = .ok ms

def Orderly (ω : Type) [Seconds τ] [Clock ω τ] (key : SessionKey) (start : τ) : Prop :=
  (∃ t, key.display = .ok t) ∧ Measures ω start

inductive Holdings.Proceeds [Seconds τ] (orderly : Prop) (recycling : Bool) (source : Raw)
    (key : SessionKey) (i : Nat) (h : Holdings τ) :
    List (PlaneCall τ) → Holdings τ → Except (Failure τ) ExecutionResult → Prop
  | failed {r added r' f out} (hr : h.runners[i]? = some r)
      (ha : r.Attempts source added r' (.error f))
      (ho : orderly → ¬ (f.isA .timeout = true ∧ recycling = true ∧ r'.suspect = true) ∧
        ∃ res, out = .ok res) :
      Proceeds orderly recycling source key i h added (h.put i r') out
  | recycled {r added r' f more h' reply out} (hr : h.runners[i]? = some r)
      (ha : r.Attempts source added r' (.error f)) (ht : f.isA .timeout = true)
      (hy : recycling = true) (hs : r'.suspect = true)
      (hl : (h.put i r').Releases key more h' reply)
      (ho : orderly → ∀ e, out = .error e ↔ reply = .error e ∧ e.isA .playground = false) :
      Proceeds orderly recycling source key i h (added ++ more) h' out
  | unmeasured {r added r' outcome out} (hr : h.runners[i]? = some r)
      (ha : r.Attempts source added r' (.ok outcome)) (hn : ¬ orderly) :
      Proceeds orderly recycling source key i h added (h.put i r') out
  | sampled {r added r' outcome more n out} (hr : h.runners[i]? = some r)
      (ha : r.Attempts source added r' (.ok outcome)) (hm : r'.Samples more (.ok n))
      (ho : orderly → ∃ res, out = .ok res) :
      Proceeds orderly recycling source key i h (added ++ more) (h.put i r') out
  | unsampled {r added r' outcome more f} (hr : h.runners[i]? = some r)
      (ha : r.Attempts source added r' (.ok outcome)) (hm : r'.Samples more (.error f)) :
      Proceeds orderly recycling source key i h (added ++ more) (h.put i r') (.error f)

namespace Engine

section

variable [Seconds τ] [Clock ω τ] (plane : ControlPlane ω τ)

def work (s : Submission τ) (start deadline : τ) (i : Nat) :
    SiteAct ω τ (Nat × RunOutcome × Int) := do
  Site.withRunner i (Runner.inject plane s.source)
  let outcome ← Site.withRunner i (Runner.run plane s.sections (some deadline))
  let milliseconds ← elapsed start
  pure (i, outcome, milliseconds)

def proceed (e : Engine τ) (s : Submission τ) (start : τ) (i : Nat) : SiteAct ω τ ExecutionResult := do
  match ← (work plane s start (Seconds.add start (e.seconds s.timeout)) i).outcome with
  | .error failure => e.resolve plane (e.key s) (e.seconds s.timeout) start (some i) failure
  | .ok (i, outcome, milliseconds) =>
    let memoryUsed ← Site.withRunner i (Runner.memoryUsage plane)
    Site.noteOf .debug (e.key s) fun key =>
      s!"Execution in session '{key}' succeeded in {milliseconds}ms"
    pure
      { success := true
        output := outcome.output
        generatedCode := if s.sections then outcome.generatedCode else ""
        milliseconds
        memoryUsed }

theorem execute_eq (factory : RunnerFactory ω τ) (e : Engine τ) (s : Submission τ) (site : Site ω τ) :
    e.execute plane factory s site =
      match acquire factory (e.key s) site with
      | (.ok i, site') => e.proceed plane s (Clock.now site.env.world) i site'
      | (.error f, site') =>
        e.resolve plane (e.key s) (e.seconds s.timeout) (Clock.now site.env.world) none f site' := by
  have hnow : Site.effect Env.now site = (.ok (Clock.now site.env.world), site) := rfl
  unfold execute attempt
  refine (Act.bind_ok hnow).trans ?_
  simp only [bind_assoc]
  rcases hacq : acquire factory (e.key s) site with ⟨f | i, site'⟩
  · have ho : (acquire factory (e.key s)).outcome site = (.ok (.error f), site') := by
      simp only [Act.outcome, hacq]
    exact (Act.bind_ok ho).trans rfl
  · have ho : (acquire factory (e.key s)).outcome site = (.ok (.ok i), site') := by
      simp only [Act.outcome, hacq]
    refine (Act.bind_ok ho).trans ?_
    unfold proceed work
    simp only [bind_assoc, pure_bind]
    refine congrFun (congrArg _ (funext fun reply => ?_)) site'
    rcases reply with f | ⟨i, outcome, milliseconds⟩ <;> rfl

end

def Recycles (e : Engine τ) (h : Holdings τ) (runner : Option Nat) (f : Failure τ) : Prop :=
  f.isA .timeout = true ∧ e.recycleOnTimeout = true ∧
    ∃ i r, runner = some i ∧ h.runners[i]? = some r ∧ r.suspect = true

theorem isSuspect_apply (runner : Option Nat) (s : Site ω τ) : ∃ b, isSuspect runner s = (.ok b, s) ∧
    (b = true ↔ ∃ i r, runner = some i ∧ s.holdings.runners[i]? = some r ∧ r.suspect = true) := by
  cases runner with
  | none => exact ⟨false, rfl, by simp⟩
  | some i => exact ⟨_, rfl, by simp [Option.any_eq_true, Site.holdings]⟩

variable [Seconds τ] {plane : ControlPlane ω τ} {settings : Settings τ} {s : Site (Recorded ω τ) τ}
  {key : SessionKey} {start : τ}

theorem recycle_does (hs : s.holdings.Sound plane settings) :
    Does (recycle plane.recorded key) s fun out added s' =>
      ∃ reply, s.holdings.Releases key added s'.holdings reply ∧ ((∃ t, key.display = .ok t) →
        ∀ e, out = .error e ↔ reply = .error e ∧ e.isA .playground = false) := by
  refine .rescue (Pool.release_does hs key) ?_ ?_
  · intro _ added s₁ hr
    exact ⟨_, hr, by simp⟩
  · intro e added s₁ hr
    cases hp : e.isA .playground with
    | true =>
      simp only [↓reduceIte]
      refine (Site.does_noteOf .warning key _).mono ?_
      rintro out _ s₂ ⟨hh, rfl, hshown⟩
      rw [hh, List.append_nil]
      refine ⟨_, hr, fun hd f => ?_⟩
      simp only [hshown.mpr hd, reduceCtorEq, Except.error.injEq, false_iff, not_and]
      rintro rfl
      simp [hp]
    | false =>
      simp only [Bool.false_eq_true, ↓reduceIte]
      refine .throw ⟨_, by simpa using hr, fun _ f => ?_⟩
      simp only [Except.error.injEq, iff_self_and]
      rintro rfl
      exact hp

variable [Clock ω τ]

theorem elapsed_does : Does (elapsed start) s fun out added s' =>
    added = [] ∧ s'.holdings = s.holdings ∧ (Measures ω start → ∃ ms, out = .ok ms) ∧
      ∀ f, out = .error f → f.isA .timeout = false := by
  refine .step (t := s) rfl rfl ?_
  cases hms : Seconds.millis (Seconds.sub (Clock.now s.env.world.world) start) with
  | error e =>
    refine .stop (t := s) rfl rfl ⟨rfl, rfl, fun hm => ?_, ?_⟩
    · obtain ⟨ms, hok⟩ := hm s.env.world.world
      cases hms.symm.trans hok
    · rintro f ⟨⟩
      cases e <;> rfl
  | ok ms => exact .step (t := s) rfl rfl (.pure ⟨rfl, rfl, fun _ => ⟨_, rfl⟩, nofun⟩)

theorem failed_does (error : String) : Does (failed error start) s fun out added s' =>
    added = [] ∧ s'.holdings = s.holdings ∧ (Measures ω start → ∃ res, out = .ok res) := by
  refine .bind elapsed_does ?_ ?_
  · rintro ms _ s₁ ⟨rfl, hh, _⟩
    exact .pure ⟨rfl, hh, fun _ => ⟨_, rfl⟩⟩
  · rintro e _ s₁ ⟨rfl, hh, hm, _⟩
    exact ⟨rfl, hh, fun h => by obtain ⟨_, ⟨⟩⟩ := hm h⟩

theorem reported_does (level : Level) (message : String → String) (error : String) :
    Does (do
      Site.noteOf level key message
      failed error start) s fun out added s' =>
        added = [] ∧ s'.holdings = s.holdings ∧ (Orderly ω key start → ∃ res, out = .ok res) := by
  refine .bind (Site.does_noteOf level key message) ?_ ?_
  · rintro _ _ s₁ ⟨hh, rfl, _⟩
    refine (failed_does error).mono ?_
    rintro out _ s₂ ⟨rfl, hh₂, hout⟩
    exact ⟨rfl, hh₂.trans hh, fun h => hout h.2⟩
  · rintro g _ s₁ ⟨hh, rfl, hshown⟩
    exact ⟨rfl, hh, fun h => by cases hshown.mpr h.1⟩

theorem resolve_does (hs : s.holdings.Sound plane settings) (e : Engine τ) (key : SessionKey)
    (seconds start : τ) (runner : Option Nat) (f : Failure τ) :
    Does (e.resolve plane.recorded key seconds start runner f) s fun out added s' =>
      (added = [] ∧ s'.holdings = s.holdings ∧
        (Orderly ω key start → ¬ e.Recycles s.holdings runner f ∧ ∃ res, out = .ok res)) ∨
      (e.Recycles s.holdings runner f ∧ ∃ reply, s.holdings.Releases key added s'.holdings reply ∧
        (Orderly ω key start → ∀ e, out = .error e ↔ reply = .error e ∧ e.isA .playground = false)) := by
  unfold resolve
  -- Only a timeout can give up the session.
  cases ht : f.isA .timeout with
  | false =>
    simp only [Bool.false_eq_true, ↓reduceIte]
    have hn : ¬ e.Recycles s.holdings runner f := by simp [Recycles, ht]
    split <;>
      exact (reported_does _ _ _).mono fun out added s' ⟨hadded, hh, hout⟩ =>
        .inl ⟨hadded, hh, fun h => ⟨hn, hout h⟩⟩
  | true =>
    simp only [↓reduceIte]
    refine .bind (Site.does_noteOf .warning key _) ?_ ?_
    · rintro _ _ s₁ ⟨hh, rfl, _⟩
      obtain ⟨b, hb, hsuspect⟩ := isSuspect_apply runner s₁
      -- The note in front of the look changes the log alone, so it is the runner of `s` that is looked at.
      have hrec : e.Recycles s.holdings runner f ↔ (e.recycleOnTimeout && b) = true := by
        rw [← hh, Bool.and_eq_true, hsuspect]
        exact ⟨fun h => h.2, fun h => ⟨ht, h⟩⟩
      refine .step hb rfl ?_
      cases hgive : e.recycleOnTimeout && b with
      | false =>
        have hn : ¬ e.Recycles s.holdings runner f := by simp [hrec, hgive]
        simp only [Bool.false_eq_true, ↓reduceIte]
        refine (failed_does _).mono ?_
        rintro out _ s₂ ⟨rfl, hh₂, hout⟩
        exact .inl ⟨rfl, hh₂.trans hh, fun h => ⟨hn, hout h.2⟩⟩
      | true =>
        have hy : e.Recycles s.holdings runner f := hrec.mpr hgive
        simp only [↓reduceIte]
        rw [← hh] at hy hs ⊢
        refine .bind (recycle_does hs) ?_ ?_
        · rintro _ added s₂ ⟨reply, hr, ho⟩
          refine (failed_does _).mono ?_
          rintro out _ s₃ ⟨rfl, hh₃, hout⟩
          refine .inr ⟨hy, reply, ?_, fun h g => ?_⟩
          · rw [hh₃, List.append_nil]
            exact hr
          · obtain ⟨res, rfl⟩ := hout h.2
            simpa using ho h.1 g
        · rintro g added s₂ ⟨reply, hr, ho⟩
          exact .inr ⟨hy, reply, hr, fun h f => by simpa using ho h.1 f⟩
    · rintro g _ s₁ ⟨hh, rfl, hshown⟩
      exact .inl ⟨rfl, hh, fun h => by cases hshown.mpr h.1⟩

theorem work_does {i : Nat} {r : Runner τ} (hr : s.holdings.runners[i]? = some r)
    (hl : r.Legible plane) (sub : Submission τ) (deadline : τ) :
    Does (work plane.recorded sub start deadline i) s fun out added s' =>
      ∃ r', s'.holdings = s.holdings.put i r' ∧
        ((∃ f, out = .error f ∧ r.Attempts sub.source added r' (.error f)) ∨
          ∃ outcome, r.Attempts sub.source added r' (.ok outcome) ∧
            ((∃ a, out = .ok a ∧ a.1 = i) ∨ ∃ f, out = .error f ∧ f.isA .timeout = false ∧ ¬ Measures ω start)) := by
  unfold work
  refine .bind (Site.does_withRunner (P := fun out added r' => r.Injects sub.source added r' out) hr
    (Runner.inject_does hl _)) ?_ ?_
  · rintro _ added s₁ ⟨r₁, hh₁, hi⟩
    have hr₁ : s₁.holdings.runners[i]? = some r₁ := by rw [hh₁, Holdings.getElem?_put hr]
    refine .bind (Site.does_withRunner (P := fun out added r' => r₁.Runs added r' out) hr₁
      (Runner.run_does (hi.legible hl) _ _)) ?_ ?_
    · rintro outcome more s₂ ⟨r₂, hh₂, hrun⟩
      have hput : s₂.holdings = s.holdings.put i r₂ := by rw [hh₂, hh₁, Holdings.put_put]
      refine .bind elapsed_does ?_ ?_
      · rintro ms _ s₃ ⟨rfl, hh₃, _⟩
        exact .pure ⟨r₂, hh₃.trans hput, .inr ⟨outcome, by simpa using .ran hi hrun, .inl ⟨_, rfl, rfl⟩⟩⟩
      · rintro f _ s₃ ⟨rfl, hh₃, hm, ht⟩
        refine ⟨r₂, hh₃.trans hput, .inr ⟨outcome, by simpa using .ran hi hrun,
          .inr ⟨f, rfl, ht f rfl, fun h => ?_⟩⟩⟩
        obtain ⟨_, ⟨⟩⟩ := hm h
    · rintro f more s₂ ⟨r₂, hh₂, hrun⟩
      exact ⟨r₂, by rw [hh₂, hh₁, Holdings.put_put], .inl ⟨f, rfl, .ran hi hrun⟩⟩
  · rintro f added s₁ ⟨r₁, hh₁, hi⟩
    exact ⟨r₁, hh₁, .inl ⟨f, rfl, .undelivered hi⟩⟩

theorem proceed_does {k : SessionKey} {i : Nat} (hs : s.holdings.Sound plane settings)
    (hk : (k, i) ∈ s.holdings.registry) (e : Engine τ) (sub : Submission τ) (start : τ) :
    Does (e.proceed plane.recorded sub start i) s fun out added s' =>
      s.holdings.Proceeds (Orderly ω (e.key sub) start) e.recycleOnTimeout sub.source (e.key sub) i
        added s'.holdings out := by
  obtain ⟨r, hr, hl, _⟩ := hs.runner hk
  unfold proceed
  refine .bind_of_ok (.outcome (work_does hr hl sub _)) ?_
  rintro reply added s₁ ⟨r₁, hh₁, hw⟩
  have hr₁ : s₁.runners[i]? = some r₁ :=
    (congrArg (fun h => h.runners[i]?) hh₁).trans (Holdings.getElem?_put hr r₁)
  -- The attempt failed, or it came to an outcome, for which the clock may or may not tell the time.
  rcases hw with ⟨f, rfl, ha⟩ | ⟨outcome, ha, ⟨⟨j, result, ms⟩, rfl, hj⟩ | ⟨f, rfl, ht, hm⟩⟩
  · have hs₁ : s₁.holdings.Sound plane settings := by
      rw [hh₁]
      exact hs.put hr ha.keeps (ha.legible hl)
    refine (resolve_does hs₁ e _ _ _ (some i) f).mono ?_
    rintro out more s₂ (⟨rfl, hh₂, ho⟩ | ⟨⟨ht, hy, j, q, ⟨⟩, hq, hsus⟩, reply, hrel, ho⟩)
    · rw [hh₂, hh₁, List.append_nil]
      refine .failed hr ha fun h => ⟨fun ⟨ht, hy, hsus⟩ => (ho h).1 ?_, (ho h).2⟩
      exact ⟨ht, hy, i, r₁, rfl, hr₁, hsus⟩
    · cases hr₁.symm.trans hq
      exact .recycled hr ha ht hy hsus (hh₁ ▸ hrel) ho
  · obtain rfl : j = i := hj
    refine .bind (Site.does_withRunner (P := fun out added r' => r' = r₁ ∧ r₁.Samples added out) hr₁
      (Runner.memoryUsage_does (ha.legible hl))) ?_ ?_
    · rintro n more s₂ ⟨_, hh₂, rfl, hsample⟩
      rw [hh₁, Holdings.put_put] at hh₂
      refine .bind (Site.does_noteOf .debug (e.key sub) _) ?_ ?_
      · rintro _ _ s₃ ⟨hh₃, rfl, _⟩
        refine .pure ?_
        rw [hh₃, hh₂]
        simpa using .sampled hr ha hsample fun _ => ⟨_, rfl⟩
      · rintro f _ s₃ ⟨hh₃, rfl, hshown⟩
        rw [hh₃, hh₂, List.append_nil]
        exact .sampled hr ha hsample fun h => by cases hshown.mpr h.1
    · rintro f more s₂ ⟨_, hh₂, rfl, hsample⟩
      rw [hh₂, hh₁, Holdings.put_put]
      exact .unsampled hr ha hsample
  · have hs₁ : s₁.holdings.Sound plane settings := by
      rw [hh₁]
      exact hs.put hr ha.keeps (ha.legible hl)
    refine (resolve_does hs₁ e _ _ _ (some i) f).mono ?_
    rintro out more s₂ (⟨rfl, hh₂, _⟩ | ⟨⟨ht', _⟩, _⟩)
    · rw [hh₂, hh₁, List.append_nil]
      exact .unmeasured hr ha fun h => hm h.2
    · cases ht.symm.trans ht'

end Engine

end Playpen
