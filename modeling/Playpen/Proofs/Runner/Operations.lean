import Playpen.Proofs.Runner.Behaviour

namespace Playpen

open Act (Does)

variable {ω τ : Type}

theorem Seat.note_ok (level : Level) {message : String → Except Misuse String} {s : Seat ω τ}
    (hk : ∃ t, s.runner.key.display = .ok t) (hm : ∀ key, ∃ t, message key = .ok t) :
    ∃ log, Seat.note level message s = (.ok (), { s with env := { s.env with log := log } }) := by
  obtain ⟨key, hk⟩ := hk
  obtain ⟨t, hm⟩ := hm key
  have hshow : (s.runner.key.display >>= message) = .ok t := by rw [hk]; exact hm
  have hs : Seat.note level message s =
      Seat.effect (Env.noteUsing level (s.runner.key.display >>= message)) s := Act.bind_ok rfl
  refine ⟨s.env.log ++ [⟨level, t⟩], ?_⟩
  rw [hs]
  simp only [Seat.effect, Act.within, Env.noteUsing_ok level hshow]

section

variable {level : Level} {message : String → Except Misuse String} {s : Seat (Recorded ω τ) τ}

theorem Seat.does_note
    {post : Except (Failure τ) Unit → List (PlaneCall τ) → Seat (Recorded ω τ) τ → Prop}
    (hk : ∃ t, s.runner.key.display = .ok t) (hm : ∀ key, ∃ t, message key = .ok t)
    (h : ∀ log, post (.ok ()) [] { s with env := { s.env with log := log } }) :
    Does (Seat.note level message) s post := by
  obtain ⟨log, hn⟩ := Seat.note_ok level hk hm
  exact .of_eq hn rfl (h log)

theorem Seat.does_note_bind {α : Type} {f : Unit → RunnerAct (Recorded ω τ) τ α}
    {post : Except (Failure τ) α → List (PlaneCall τ) → Seat (Recorded ω τ) τ → Prop}
    (hk : ∃ t, s.runner.key.display = .ok t) (hm : ∀ key, ∃ t, message key = .ok t)
    (h : ∀ log, Does (f ()) { s with env := { s.env with log := log } } post) :
    Does (Seat.note level message >>= f) s post := by
  obtain ⟨log, hn⟩ := Seat.note_ok level hk hm
  exact .step hn rfl (h log)

end

namespace Runner

variable {plane : ControlPlane ω τ} {s : Seat (Recorded ω τ) τ}

theorem does_create (hl : s.runner.Legible plane) (l : Link) (spec : EnvironmentSpec)
    (env : Env (Recorded ω τ) τ) :
    Does (plane.recorded.create l spec) env fun r added _ =>
      added = [.create l spec env.drawn r] ∧ ∀ id, r = .ok id → ∃ t, shortId id = .ok t :=
  ((Env.does_create plane l spec env).also (Q := fun r => ∀ id, r = .ok id → ∃ t, shortId id = .ok t)
    fun _ h => hl.plane.created h).mono fun _ _ _ h => ⟨h.2, h.1⟩

theorem tolerated_does {call : Except (Failure τ) Unit → PlaneCall τ} {x : Effect ω τ Unit}
    {k : Kind} {handler : Failure τ → RunnerAct (Recorded ω τ) τ Unit}
    (hh : ∀ e s', s'.runner = s.runner → e.isA k = true →
      Does (handler e) s' fun r added s'' => r = .ok () ∧ added = [] ∧ s''.runner = s'.runner) :
    Does (tryCatch (Seat.effect (Env.recorded call x)) fun e =>
        if e.isA k then handler e else throw e) s fun r added s' => s'.runner = s.runner ∧
      ∃ reply, added = [call reply] ∧ ((r = .ok () ∧ ∀ f, reply = .error f → f.isA k = true) ∨
        ∃ e, r = .error e ∧ reply = .error e ∧ e.isA k = false) := by
  refine .rescue (Seat.does_effect Env.does_recorded) ?_ ?_
  · rintro _ added s₁ ⟨hr, rfl⟩
    exact ⟨hr, .ok (), rfl, .inl ⟨rfl, nofun⟩⟩
  · rintro e added s₁ ⟨hr, rfl⟩
    cases hk : e.isA k with
    | true =>
      simp only [↓reduceIte]
      refine (hh e s₁ hr hk).mono ?_
      rintro r last s' ⟨rfl, rfl, hr'⟩
      refine ⟨hr'.trans hr, .error e, rfl, .inl ⟨rfl, ?_⟩⟩
      rintro f ⟨⟩
      exact hk
    | false =>
      simp only [Bool.false_eq_true, ↓reduceIte]
      exact .throw ⟨hr, .error e, rfl, .inr ⟨e, rfl, rfl, hk⟩⟩

theorem close_does (hl : s.runner.Legible plane) :
    Does (close plane.recorded) s fun r added s' => Closes s.runner added s'.runner r := by
  unfold close
  refine .step (t := s) rfl rfl ?_
  cases hc : s.runner.closed with
  | true =>
    simp only [↓reduceIte]
    exact .pure (.already hc)
  | false =>
    simp only [Bool.false_eq_true, ↓reduceIte]
    refine .step rfl rfl ?_
    -- With nothing to remove, the connection is all that is closed.
    have bare : s.runner.owns = false ∨ s.runner.environment = none →
        Does (Act.ensure (pure () : RunnerAct (Recorded ω τ) τ Unit)
            (Seat.effect (plane.recorded.close s.runner.link)))
          { s with runner := { s.runner with closed := true } } fun r added s' =>
            Closes s.runner added s'.runner r := by
      intro hn
      refine .ensure (.pure (P := fun r added s' => r = .ok () ∧ added = [] ∧
        s'.runner = { s.runner with closed := true }) ⟨rfl, rfl, rfl⟩) ?_
      rintro _ _ s₁ ⟨rfl, rfl, hr⟩
      refine (Seat.does_effect Env.does_recorded).mono ?_
      rintro last more s₂ ⟨hr₂, rfl⟩
      rw [hr₂, hr]
      have hlast : (last.bind fun _ => .ok ()) = last := by cases last <;> rfl
      rw [hlast]
      exact .bare hc hn
    cases ho : s.runner.owns with
    | false => exact bare (.inl ho)
    | true =>
      cases he : s.runner.environment with
      | none => exact bare (.inr he)
      | some id =>
        obtain ⟨place, hplace⟩ := hl.environment he
        simp only [hplace]
        refine .ensure (M := fun r added s' => added = [.remove s.runner.link id r] ∧
          s'.runner = { s.runner with closed := true, environment := none }) ?_ ?_
        · refine .step rfl rfl (.bind (Seat.does_effect Env.does_recorded) ?_ ?_)
          · rintro _ _ s₁ ⟨hr, rfl⟩
            refine Seat.does_note ?_ (fun key => ⟨_, rfl⟩) fun log => ⟨rfl, hr⟩
            rw [hr]
            exact hl.key
          · rintro e _ s₁ ⟨hr, rfl⟩
            exact ⟨rfl, hr⟩
        · rintro removal _ s₁ ⟨rfl, hr⟩
          refine (Seat.does_effect Env.does_recorded).mono ?_
          rintro closing _ s₂ ⟨hr₂, rfl⟩
          rw [hr₂, hr]
          exact .removed hc ho he

variable [Seconds τ]

theorem abortRunaway_does {id : EnvironmentId}
    (hid : ∃ t, shortId id = .ok t) :
    Does (abortRunaway plane.recorded id) s fun r added s' => s'.runner = s.runner ∧
      ∃ reply, added = [.terminate s.runner.link id s.runner.settings.user reply] ∧
        ((r = .ok () ∧ ∀ f, reply = .error f → f.isA .playground = true) ∨
          ∃ e, r = .error e ∧ reply = .error e ∧ e.isA .playground = false) := by
  unfold abortRunaway
  obtain ⟨place, hplace⟩ := hid
  refine .step (t := s) rfl rfl (tolerated_does fun e s' _ _ => ?_)
  rw [hplace]
  exact .step rfl rfl (.of_eq rfl rfl ⟨rfl, rfl, rfl⟩)

theorem memoryUsage_does (hl : s.runner.Legible plane) :
    Does (memoryUsage plane.recorded) s fun r added s' =>
      s'.runner = s.runner ∧ Samples s.runner added r := by
  unfold memoryUsage
  refine .step (t := s) rfl rfl ?_
  cases he : s.runner.environment with
  | none => exact .pure ⟨rfl, .down he⟩
  | some id =>
    simp only
    -- What may go wrong inside is the call, or the conversion of what it answers.
    refine .rescue (M := fun r added s' => s'.runner = s.runner ∧
      ∃ reply, added = [.memoryUsage s.runner.link id reply] ∧
        ((∃ e, reply = .error e ∧ r = .error e) ∨
        (∃ v m, reply = .ok v ∧ v.toInt = .error m ∧ r = .error m.failure) ∨
        ∃ v n, reply = .ok v ∧ v.toInt = .ok n ∧ r = .ok (max 0 n))) ?_ ?_ ?_
    · refine .bind (Seat.does_effect Env.does_recorded) ?_ ?_
      · rintro v added s₁ ⟨hr, rfl⟩
        cases hv : v.toInt with
        | error m => exact .stop rfl rfl ⟨hr, _, rfl, .inr (.inl ⟨v, m, rfl, hv, rfl⟩)⟩
        | ok n => exact .step rfl rfl (.pure ⟨hr, _, rfl, .inr (.inr ⟨v, n, rfl, hv, rfl⟩)⟩)
      · rintro e added s₁ ⟨hr, rfl⟩
        exact ⟨hr, _, rfl, .inl ⟨e, rfl, rfl⟩⟩
    · rintro n added s₁ ⟨hr, reply, rfl, ⟨_, rfl, ⟨⟩⟩ | ⟨_, _, rfl, _, ⟨⟩⟩ | ⟨v, n', rfl, hv, ⟨⟩⟩⟩
      exact ⟨hr, .sampled he hv⟩
    · rintro e added s₁ ⟨hr, reply, rfl, ⟨_, rfl, ⟨⟩⟩ | ⟨v, m, rfl, hv, ⟨⟩⟩ | ⟨_, _, rfl, _, ⟨⟩⟩⟩
      · cases hp : e.isA .playground with
        | true =>
          simp only [↓reduceIte]
          exact Seat.does_note_bind (hr ▸ hl.key) (fun key => ⟨_, rfl⟩) fun log =>
            .pure ⟨hr, .unknown he hp⟩
        | false =>
          simp only [Bool.false_eq_true, ↓reduceIte]
          exact .throw ⟨hr, .failed he hp⟩
      · have hp : (m.failure : Failure τ).isA .playground = false := by cases m <;> rfl
        simp only [hp, Bool.false_eq_true, ↓reduceIte]
        exact .throw ⟨hr, .unreadable he hv⟩

variable [Clock ω τ]

theorem createEnvironment_does (hl : s.runner.Legible plane) :
    Does (createEnvironment plane.recorded) s fun r added s' =>
      s'.runner = s.runner ∧ Creates s.runner.link added r ∧
        (added ≠ [] ↔ ∃ parts, s.runner.nameParts = .ok parts) := by
  unfold createEnvironment
  refine .step (t := s) rfl rfl ?_
  rcases s.runner.nameParts with m | ⟨start, key⟩
  · exact .stop rfl rfl ⟨rfl, .unnamed _, by simp⟩
  refine .step rfl rfl (.step rfl rfl ?_)
  refine .bind (Seat.does_effect (Env.does_timed (does_create hl _ _ _))) ?_ ?_
  · rintro id added s' ⟨hr, rfl, hid⟩
    obtain ⟨place, hplace⟩ := hid id rfl
    obtain ⟨image, himage⟩ := hl.plane.image
    refine Seat.does_note_bind (hr ▸ hl.key) (fun key => ⟨_, by rw [hplace, himage]; rfl⟩) fun log => ?_
    exact .pure ⟨hr, .created _ _ ⟨place, hplace⟩, by simp⟩
  · rintro e added s' ⟨hr, rfl, _⟩
    exact ⟨hr, .refused _ _ _, by simp⟩

theorem start_does (hl : s.runner.Legible plane) :
    Does (start plane.recorded) s fun r added s' => Starts s.runner added s'.runner r := by
  unfold start
  refine .step (t := s) rfl rfl ?_
  split
  · rename_i h
    exact .pure (.up h)
  rename_i h
  have hnone : s.runner.environment = none := by simpa using h
  split
  · rename_i ho
    refine .bind (createEnvironment_does hl) ?_ ?_
    · rintro id added s' ⟨hr, hc, hn⟩
      have hnamed : ∃ parts, s.runner.nameParts = .ok parts := hn.mp (by cases hc; simp)
      exact .of_eq rfl rfl (by simpa [hr] using .created hnone ho hc hnamed)
    · rintro e added s' ⟨hr, hc, hn⟩
      simpa [hr] using .failed hnone ho hc hn
  · rename_i ho
    have ho : s.runner.owns = false := by simpa using ho
    obtain ⟨⟨_, _⟩, shown, hshown⟩ := hl.plane.attached ho
    refine .bind (Seat.does_effect Env.does_recorded) ?_ ?_
    · rintro running added s' ⟨hr, rfl⟩
      cases running with
      | true =>
        simp only [Bool.not_true, Bool.false_eq_true, ↓reduceIte]
        refine .step rfl rfl (Seat.does_note ?_ (fun key => ⟨_, by rw [hshown]; rfl⟩) fun log => ?_)
        · simpa [hr] using hl.key
        · simpa [hr] using .attached hnone ho
      | false =>
        simp only [Bool.not_false, ↓reduceIte, hshown]
        refine .step rfl rfl (.stop rfl rfl ?_)
        simpa [hr] using .absent hnone ho (.inr ⟨rfl, _, rfl⟩)
    · rintro e added s' ⟨hr, rfl⟩
      simpa [hr] using .absent hnone ho (.inl rfl)

theorem requireEnvironment_does (hl : s.runner.Legible plane) :
    Does (requireEnvironment plane.recorded) s fun r added s' =>
      Requires s.runner added s'.runner r := by
  unfold requireEnvironment
  refine .step (t := s) rfl rfl ?_
  cases hc : s.runner.closed with
  | true =>
    obtain ⟨key, hkey⟩ := hl.key
    simp only [↓reduceIte, hkey]
    exact .step rfl rfl (.stop rfl rfl (.closed hc _))
  | false =>
    simp only [Bool.false_eq_true, ↓reduceIte]
    cases he : s.runner.environment with
    | some id =>
      simp only [Option.isNone_some, Bool.false_eq_true, ↓reduceIte]
      refine .step (t := s) rfl rfl ?_
      rw [he]
      exact .pure (.up hc (.up (by simp [he])) he)
    | none =>
      simp only [Option.isNone_none, ↓reduceIte]
      refine .bind (start_does hl) ?_ ?_
      · intro _ added s' hs
        refine .step (t := s') rfl rfl ?_
        cases he' : s'.runner.environment with
        | some id => exact .pure (by simpa using .up hc hs he')
        | none => exact absurd hs.isSome (by simp [he'])
      · intro e added s' hs
        exact .down hc hs

theorem inject_does (hl : s.runner.Legible plane) (source : Raw) :
    Does (inject plane.recorded source) s fun r added s' =>
      Injects source s.runner added s'.runner r := by
  unfold inject
  refine .bind (requireEnvironment_does hl) ?_ ?_
  · intro id added s₁ hq
    refine .step (t := s₁) rfl rfl ?_
    cases hd : (Staging.sourceBytes source : Except (Failure τ) Utf8.Bytes) with
    | error e => exact .stop rfl rfl (by simpa using .unpacked hq e)
    | ok data =>
      refine .step (t := s₁) rfl rfl (.step (t := s₁) rfl rfl ?_)
      cases ha : Staging.archive s₁.runner.settings.sourceFilename (Staging.withNewline data)
          (Clock.wall s₁.env.world) with
      | error e => exact .stop rfl rfl (by simpa using .unpacked hq e)
      | ok archive =>
        refine .step (t := s₁) rfl rfl ?_
        refine (Seat.does_effect (Env.does_timed Env.does_recorded)).mono ?_
        rintro r last s' ⟨hr, rfl⟩
        rw [hr, hq.keeps.link, hq.keeps.settings]
        exact .delivered hq ⟨data, _, hd, hq.keeps.settings ▸ ha⟩
  · intro e added s₁ hq
    exact .down hq

theorem verifyIfSuspect_does (hl : s.runner.Legible plane) :
    Does (verifyIfSuspect plane.recorded) s fun r added s' =>
      Verifies s.runner added s'.runner r := by
  unfold verifyIfSuspect
  refine .step (t := s) rfl rfl ?_
  split
  · rename_i id hs he
    refine .bind (Seat.does_effect Env.does_recorded) ?_ ?_
    · rintro running added s₁ ⟨hr, rfl⟩
      cases running with
      | true =>
        simp only [↓reduceIte]
        exact .of_eq rfl rfl (by simpa [hr] using .alive hs he)
      | false =>
        simp only [Bool.false_eq_true, ↓reduceIte]
        cases ho : s.runner.owns with
        | false =>
          simp only [Bool.not_false, ↓reduceIte]
          rcases hd : id.display with m | name
          · exact .stop rfl rfl (by simpa [hr] using .gone hs he ho fun ⟨t, ht⟩ => nomatch hd.symm.trans ht)
          · exact .step rfl rfl (.throw (by simpa [hr] using .gone hs he ho fun _ => ⟨_, rfl⟩))
        | true =>
          simp only [Bool.not_true, Bool.false_eq_true, ↓reduceIte]
          obtain ⟨place, hplace⟩ := hl.environment he
          rw [hplace]
          refine .step rfl rfl (.step rfl rfl (.step rfl rfl ?_))
          -- The environment that is gone is removed first, and the sandbox may fail to do so.
          refine .bind (tolerated_does fun e s' _ _ => .of_eq rfl rfl ⟨rfl, rfl, rfl⟩) ?_ ?_
          · rintro _ added s₂ ⟨hr₂, reply, rfl, hreply⟩
            have hreply := (hreply.resolve_right fun ⟨_, h, _⟩ => by cases h).2
            have hnone : s₂.runner = { s.runner with environment := none } := by simp [hr₂, hr]
            have hl₂ : s₂.runner.Legible plane := by
              rw [hnone]
              exact hl.of_keeps ⟨rfl, rfl, rfl, rfl⟩ nofun
            refine .bind (createEnvironment_does hl₂) ?_ ?_
            · rintro fresh added s₃ ⟨hr₃, hc, _⟩
              refine .of_eq rfl rfl ?_
              simpa [hr₃, hnone] using .replaced hs he ho hreply (by simpa [hnone] using hc)
            · rintro e added s₃ ⟨hr₃, hc, _⟩
              simpa [hr₃, hnone] using .unreplaced hs he ho hreply (by simpa [hnone] using hc)
          · rintro e added s₂ ⟨hr₂, reply, rfl, ⟨⟨⟩, _⟩ | ⟨_, ⟨⟩, rfl, hk⟩⟩
            simpa [hr₂, hr] using .stuck hs he ho hk
    · rintro e added s₁ ⟨hr, rfl⟩
      simpa [hr] using .unreachable hs he e
  · rename_i h
    refine .pure (.trusted ?_)
    cases hs : s.runner.suspect with
    | false => exact .inl rfl
    | true => exact .inr (Option.eq_none_iff_forall_ne_some.mpr fun id he => h id hs he)

theorem execAborting_does (hl : s.runner.Legible plane) {id : EnvironmentId}
    (hid : ∃ t, shortId id = .ok t) (command : Command τ) :
    Does (execAborting plane.recorded id command) s fun r added s' =>
      Execs s.runner id command added s'.runner r := by
  unfold execAborting
  refine .step (t := s) rfl rfl ?_
  refine .rescue (Seat.does_effect (Env.does_timed Env.does_recorded)) ?_ ?_
  · rintro capture added s₁ ⟨hr, rfl⟩
    rw [hr]
    exact .ran capture
  · rintro e added s₁ ⟨hr, rfl⟩
    cases ht : e.isA .timeout with
    | false =>
      simp only [Bool.false_eq_true, ↓reduceIte]
      exact .throw (by simpa [hr] using .broke ht)
    | true =>
      simp only [↓reduceIte]
      have hs₁ : ({ s₁.runner with suspect := true } : Runner τ) = { s.runner with suspect := true } := by
        rw [hr]
      have hl₁ : ({ s₁.runner with suspect := true } : Runner τ).Legible plane := by
        rw [hs₁]
        exact hl.of_keeps ⟨rfl, rfl, rfl, rfl⟩ fun _ => hl.environment
      refine .step rfl rfl (Seat.does_note_bind hl₁.key (fun key => ⟨_, rfl⟩) fun log => ?_)
      refine .bind (abortRunaway_does hid) ?_ ?_
      · rintro _ added s₂ ⟨hr₂, reply, rfl, ⟨_, hreply⟩ | ⟨_, ⟨⟩, _⟩⟩
        refine .throw ?_
        rw [hr₂]
        simpa [hr] using .stopped ht hreply
      · rintro f added s₂ ⟨hr₂, reply, rfl, ⟨⟨⟩, _⟩ | ⟨_, ⟨⟩, rfl, hf⟩⟩
        rw [hr₂]
        simpa [hr] using .runaway ht hf

theorem readies_bind {α : Type} {f : EnvironmentId → RunnerAct (Recorded ω τ) τ α}
    {post : Except (Failure τ) α → List (PlaneCall τ) → Seat (Recorded ω τ) τ → Prop}
    (hl : s.runner.Legible plane)
    (hok : ∀ id added s', Readies s.runner added s'.runner (.ok id) →
      Does (f id) s' fun r more s'' => post r (added ++ more) s'')
    (herror : ∀ e added s', Readies s.runner added s'.runner (.error e) → post (.error e) added s') :
    Does (verifyIfSuspect plane.recorded >>= fun _ => requireEnvironment plane.recorded >>= f) s post := by
  refine .bind (verifyIfSuspect_does hl) ?_ ?_
  · intro _ added s₁ hv
    refine .bind (requireEnvironment_does (hv.legible hl)) ?_ ?_
    · intro id more s₂ hq
      simpa only [List.append_assoc] using hok id _ s₂ (.verified hv hq)
    · intro e more s₂ hq
      exact herror e _ s₂ (.verified hv hq)
  · intro e added s₁ hv
    exact herror e _ s₁ (.unverified hv)

theorem run_does (hl : s.runner.Legible plane) (sections : Bool) (deadline : Option τ) :
    Does (run plane.recorded sections deadline) s fun r added s' =>
      Runs s.runner added s'.runner r := by
  unfold run
  refine readies_bind hl ?_ fun e added s' hr => .down hr
  intro id added s₁ hr
  have hl₁ := hr.legible hl
  have unready : ∀ {m : List (PlaneCall τ)} {e}, m = [] →
      Runs s.runner (added ++ m) s₁.runner (.error e) := by
    rintro _ e rfl
    simpa using .unready hr e
  refine .step (t := s₁) rfl rfl (.step (t := s₁) rfl rfl ?_)
  rcases timeLimit s₁.runner.settings.maxExecutionTime (Clock.now s₁.env.world) deadline with e | timeout
  · exact .stop rfl rfl (unready rfl)
  refine .step (t := s₁) rfl rfl ?_
  simp only []
  rcases s₁.runner.settings.expand (if sections then s₁.runner.settings.generatedCodeCommand
    else s₁.runner.settings.runCommand) with m | line
  · exact .stop rfl rfl (unready rfl)
  refine .step (t := s₁) rfl rfl (Seat.does_note_bind hl₁.key (fun key => ⟨_, rfl⟩) fun log => ?_)
  refine .bind (execAborting_does (s := { s₁ with env := { s₁.env with log := log } }) hl₁
    (hl₁.environment hr.environment) _) ?_ ?_
  · intro capture more s₂ hx
    rcases s₁.runner.settings.sanitized sections (.bytes capture.output) with m | sanitized
    · exact .stop rfl rfl (by simpa using .finished hr hx _)
    refine .step (t := s₂) rfl rfl ?_
    exact .of_eq rfl rfl (by simpa using .finished hr hx _)
  · intro e more s₂ hx
    exact .failed hr hx

theorem toolchainVersion_does (hl : s.runner.Legible plane) (timeout : Option τ) :
    Does (toolchainVersion plane.recorded timeout) s fun r added s' =>
      Asks s.runner added s'.runner r := by
  unfold toolchainVersion
  refine readies_bind hl ?_ fun e added s' hr => .down hr
  intro id added s₁ hr
  refine .step (t := s₁) rfl rfl ?_
  rcases s₁.runner.settings.expand s₁.runner.settings.versionCommand with m | line
  · exact .stop rfl rfl (by simpa using .unready hr _)
  refine .step (t := s₁) rfl rfl ?_
  refine .bind (Seat.does_effect Env.does_recorded) ?_ ?_
  · rintro capture more s₂ ⟨hr₂, rfl⟩
    have asked : ∀ {command} {m : List (PlaneCall τ)} {out : Except (Failure τ) String}, m = [] →
        Asks s.runner (added ++ ([.exec s₁.runner.link id command (.ok capture)] ++ m)) s₂.runner out := by
      rintro command _ out rfl
      rw [hr₂, hr.keeps.link]
      exact .asked hr out
    split
    · exact .throw (asked rfl)
    · exact .pure (asked rfl)
  · rintro e more s₂ ⟨hr₂, rfl⟩
    rw [hr₂, hr.keeps.link]
    exact .asked hr _

theorem validateToolchain_does (hl : s.runner.Legible plane) :
    Does (validateToolchain plane.recorded) s fun r added s' =>
      Asks s.runner added s'.runner r := by
  unfold validateToolchain
  refine .bind (toolchainVersion_does hl none) ?_ ?_
  · intro version added s₁ ha
    have asked : ∀ {m : List (PlaneCall τ)} {out : Except (Failure τ) Unit}, m = [] →
        Asks s.runner (added ++ m) s₁.runner out := by
      rintro _ out rfl
      cases ha with
      | asked hr => simpa using .asked hr out
    split
    · exact .throw (asked rfl)
    · exact .pure (asked rfl)
  · intro e added s₁ ha
    cases ha with
    | down hr => exact .down hr
    | unready hr => exact .unready hr e
    | asked hr => exact .asked hr _

theorem bringUp_does {r : Runner τ} (hl : r.Legible plane) (env : Env (Recorded ω τ) τ) :
    Does (bringUp plane.recorded r) env fun out added _ =>
      (∃ r', out = .ok r' ∧ Starts r added r' (.ok ())) ∨
      ∃ first r' e closing, Starts r first r' (.error e) ∧ added = first ++ [.close r.link closing] ∧
        out = closing.bind fun _ => .error e := by
  obtain ⟨added, hc, hs⟩ := start_does (s := ⟨r, env⟩) hl
  rcases hst : start plane.recorded ⟨r, env⟩ with ⟨e | _, seat⟩ <;> rw [hst] at hc hs
  · have hb : bringUp plane.recorded r env =
        (plane.recorded.close r.link >>= fun _ => throw e : Effect _ τ (Runner τ)) seat.env := by
      simp only [bringUp, hst]
      rfl
    have hclose : Does (plane.recorded.close r.link >>= fun _ => throw e : Effect _ τ (Runner τ))
        seat.env fun out more _ => ∃ closing, more = [.close r.link closing] ∧
          out = closing.bind fun _ => .error e := by
      refine .bind Env.does_recorded ?_ ?_
      · rintro _ _ env₁ rfl
        exact .throw ⟨.ok (), rfl, rfl⟩
      · rintro f _ env₁ rfl
        exact ⟨.error f, rfl, rfl⟩
    obtain ⟨_, hmore, closing, rfl, hout⟩ := hclose
    rw [← hb] at hmore hout
    exact ⟨added ++ [.close r.link closing], by rw [hmore, ← List.append_assoc]; exact congrArg (· ++ _) hc,
      .inr ⟨added, _, e, closing, hs, rfl, hout⟩⟩
  · refine ⟨added, ?_, .inl ⟨seat.runner, ?_, hs⟩⟩ <;> simp only [bringUp, hst]
    exact hc

theorem open_does {settings : Settings τ} {key : SessionKey} (hk : ∃ t, key.display = .ok t)
    (hp : plane.Legible settings) (env : Env (Recorded ω τ) τ) :
    Does (Runner.open plane.recorded settings key) env fun out added _ =>
      Opens settings key added out := by
  unfold Runner.open new
  simp only [bind_assoc, pure_bind]
  refine .bind Env.does_recorded ?_ ?_
  · rintro link _ env₁ rfl
    have hl : ({ key, settings, link } : Runner τ).Legible plane := ⟨hk, hp, fun h => by cases h⟩
    refine (bringUp_does hl env₁).mono ?_
    intro out more env₂ h
    rcases h with ⟨r', rfl, hs⟩ | ⟨first, r', e, closing, hs, rfl, rfl⟩
    · exact .opened hs
    · exact .failed hs
  · rintro e _ env₁ rfl
    exact .unconnected e

end Runner

end Playpen
