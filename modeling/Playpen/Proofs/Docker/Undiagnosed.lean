import Playpen.Proofs.Config.Overrides
import Playpen.Proofs.Docker.Consultations
import Playpen.Proofs.Docker.Diagnosis

namespace Playpen.Docker.Doctor

open Act (Does)
open Config (doubleOfInt_eq)

variable {ω : Type} [Clock ω Double] {s : Config.Sandbox} {choice : Choice} {f : Failure Double}

inductive Limitless (s : Config.Sandbox) : Prop
  | beyond {i : Int} {negative : Bool} (hi : s.controlTimeout = .int i) (h : Double.ofInt i = .infinite negative) :
    Limitless s
  | endless (hplane : s.controlPlane = .text "docker-api") (h : s.controlTimeout = .float (.infinite false)) :
    Limitless s

theorem clientLimit_error {x : Double} :
    Api.clientLimit x = .error f ↔ x = .infinite false ∧ f = .other .overflow none := by
  unfold Api.clientLimit
  cases x with
  | nan =>
    have hlt : Seconds.lt (Seconds.ofNat 1 : Double) .nan = false := by decide +kernel
    rw [hlt]
    exact iff_of_false nofun nofun
  | infinite negative =>
    cases negative with
    | true =>
      have hlt : Seconds.lt (Seconds.ofNat 1 : Double) (.infinite true) = false := by decide +kernel
      rw [hlt]
      exact iff_of_false nofun nofun
    | false =>
      have hlt : Seconds.lt (Seconds.ofNat 1 : Double) (.infinite false) = true := by decide +kernel
      rw [hlt, if_pos rfl]
      constructor
      · rintro ⟨⟩
        exact ⟨rfl, rfl⟩
      · rintro ⟨-, rfl⟩
        rfl
  | finite y =>
    refine iff_of_false ?_ nofun
    split <;> nofun

theorem ofInt_ne_infinite : ∀ i ∈ [(0 : Int), 30], ∀ negative, Double.ofInt i ≠ .infinite negative := by
  decide +kernel

theorem timeLimit_cases (hreal : s.controlTimeout.IsReal) :
    (∃ x, timeLimit s.attribute? = .ok x ∧ (x = .infinite false ↔ s.controlTimeout = .float (.infinite false)) ∧
      ∀ i negative, s.controlTimeout = .int i → Double.ofInt i ≠ .infinite negative) ∨
    ∃ i negative, s.controlTimeout = .int i ∧ Double.ofInt i = .infinite negative ∧
      timeLimit s.attribute? = .error .tooLarge := by
  have hlimit : timeLimit s.attribute? =
    (if s.controlTimeout.truth then s.controlTimeout else .float (Double.ofInt 30)).toDouble := rfl
  rw [hlimit]
  generalize s.controlTimeout = v at hreal
  have husual := ofInt_ne_infinite 30 (by decide)
  cases hreal with
  | float x =>
    -- A zero counts as false and stands for the usual limit.
    cases hx : (Value.float x).truth with
    | true => exact .inl ⟨x, rfl, by simp, nofun⟩
    | false =>
      refine .inl ⟨Double.ofInt 30, rfl, iff_of_false (husual false) ?_, nofun⟩
      rintro ⟨⟩
      cases hx
  | nan mark => exact .inl ⟨.nan, rfl, by simp, nofun⟩
  | int h =>
    obtain ⟨i, rfl, -⟩ := h
    cases hi : (Value.int i).truth with
    | true =>
      rw [if_pos rfl]
      show (∃ x, Value.doubleOfInt i = .ok x ∧ _) ∨ ∃ j negative, _ ∧ _ ∧ Value.doubleOfInt i = .error .tooLarge
      rw [doubleOfInt_eq]
      dsimp only
      cases hx : Double.ofInt i with
      | infinite negative => exact .inr ⟨i, negative, rfl, hx, rfl⟩
      | nan =>
        refine .inl ⟨_, rfl, iff_of_false nofun nofun, ?_⟩
        rintro _ negative ⟨⟩ h
        cases hx.symm.trans h
      | finite y =>
        refine .inl ⟨_, rfl, iff_of_false nofun nofun, ?_⟩
        rintro _ negative ⟨⟩ h
        cases hx.symm.trans h
    | false =>
      obtain rfl : i = 0 := by simpa [Value.truth, Scalar.truth, Value.int] using hi
      refine .inl ⟨Double.ofInt 30, rfl, iff_of_false (husual false) nofun, ?_⟩
      rintro _ negative ⟨⟩
      exact ofInt_ne_infinite 0 (by decide) negative

theorem usable_error (hreal : s.controlTimeout.IsReal) (hplane : s.controlPlane = .text choice.name) :
    usable choice (timeLimit s.attribute?) = .error f ↔ Limitless s ∧ f = .other .overflow none := by
  obtain ⟨x, hx, hinfinite, hint⟩ | ⟨i, negative, hi, hbeyond, hlimit⟩ := timeLimit_cases hreal
  · rw [hx]
    cases choice with
    | cli =>
      refine iff_of_false nofun ?_
      rintro ⟨⟨hi, h⟩ | ⟨hapi, -⟩, -⟩
      · exact hint _ _ hi h
      · exact absurd (Scalar.text.inj (Value.scalar.inj (hplane.symm.trans hapi))) (by decide)
    | api =>
      have hlimitless : Limitless s ↔ x = .infinite false := by
        rw [hinfinite]
        constructor
        · rintro (⟨hi, h⟩ | ⟨-, h⟩)
          · exact absurd h (hint _ _ hi)
          · exact h
        · exact .endless hplane
      rw [usable_api, hlimitless, ← clientLimit_error]
      cases Api.clientLimit x <;> simp [Except.map]
  · have hlimitless : Limitless s := .beyond hi hbeyond
    rw [hlimit]
    constructor
    · rintro ⟨⟩
      exact ⟨hlimitless, rfl⟩
    · rintro ⟨-, rfl⟩
      rfl

/-- The failures that a diagnosis with these consultations ends with. A connection that fails at first is reported, and
so only the tail counts. -/
inductive Undiagnosed (s : Config.Sandbox) (consultations : List (Consultation Double)) : Failure Double → Prop
  | broken {e : Failure Double} (h : Broken consultations e) : Undiagnosed s consultations e
  | unconnected {i : Int} {e : Failure Double} (h : .fromEnv i (.error e) ∈ consultations.tail) :
    Undiagnosed s consultations (.controlPlane s!"Failed to connect to Docker: {e.message}" none)
  | limitless (hattached : s.containerName.truth = true) (hsome : consultations ≠ [])
    (hall : ∀ c ∈ consultations, c.succeeds = true) (hsound : ∀ e, ¬Broken consultations e) (h : Limitless s) :
    Undiagnosed s consultations (.other .overflow none)

section

variable {shell : Shell ω Double} {client : Client ω Double} {env : Env (Rack (Consulted ω Double) Double) Double}

theorem does_environmentCheck (hshell : shell.Proper) (hclient : client.Sincere) (hs : s.Typed) (binary : String) :
    let limit := timeLimit s.attribute?
    Does (environmentCheck shell.consulted client.consulted s.attribute? choice.name binary limit) env
      fun out added _ =>
        (∀ f, out = .error f ↔ if s.containerName.truth then Unattached (usable choice limit) added f
          else Broken added f) ∧
          (s.containerName.truth = false → ∃ l ending, added = [.launch l ending]) := by
  intro limit
  unfold environmentCheck
  have hcontainer : setting s.attribute? "container_name" .null = s.containerName := rfl
  have himage : setting s.attribute? "image" (.text "") = s.image := rfl
  have hbinary : setting s.attribute? "docker_binary" (.text "docker") = s.dockerBinary := rfl
  rw [hcontainer, himage]
  dsimp only
  cases hattached : s.containerName.truth with
  | true =>
    rw [if_pos rfl]
    obtain hnull | ⟨container, hcontainer⟩ := hs.containerName
    · rw [hnull] at hattached
      cases hattached
    obtain ⟨name, hname⟩ := hs.dockerBinary
    have hname : ∃ text, binaryText (setting s.attribute? "docker_binary" (.text "docker")) = .ok text := by
      rw [hbinary, hname, binaryText]
      split <;> exact ⟨_, rfl⟩
    obtain ⟨text, htext⟩ := hname
    have hnormalized : (normalized (.text choice.name) : Except (Failure Double) String) = .ok choice.name := by
      cases choice <;> rfl
    rw [hcontainer]
    exact (does_attached hshell hclient hnormalized (choice?_eq_some_iff.mpr rfl) htext).mono fun out added _ h =>
      ⟨h, nofun⟩
  | false =>
    rw [if_neg Bool.false_ne_true]
    obtain ⟨image, himage⟩ := hs.image
    have htext : ∃ text, textOr s.image "" = .ok text := by
      rw [himage, textOr]
      split <;> exact ⟨_, rfl⟩
    obtain ⟨text, htext⟩ := htext
    have hused : (Act.used (textOr s.image "") : Effect (Rack (Consulted ω Double) Double) Double String) env =
        (.ok text, env) := by
      rw [htext]
      rfl
    refine .step hused rfl (.bind (does_imageAvailable hshell _ _ _) ?_ ?_)
    · rintro present added env₁ ⟨himage, hbroken⟩
      rw [← List.append_nil added] at himage hbroken
      exact .pure ⟨fun f => iff_of_false nofun fun h => (by cases (hbroken f).mpr h), fun _ => himage⟩
    · rintro e added env₁ ⟨himage, hbroken⟩
      refine ⟨fun f => ?_, fun _ => himage⟩
      rw [if_neg Bool.false_ne_true, ← hbroken f, Except.error.injEq, Except.error.injEq]

omit [Clock ω Double] in
theorem undiagnosed_append {sounding more : List (Consultation Double)} {detail : String} (hs : s.Typed)
    (hplane : s.controlPlane = .text choice.name) (hsounded : Sounded sounding (.ok (true, detail)))
    (hopened : ∀ limit r, .fromEnv limit r ∉ sounding.tail)
    (himage : s.containerName.truth = false → ∃ l ending, more = [.launch l ending]) :
    Undiagnosed s (sounding ++ more) f ↔
      if s.containerName.truth then Unattached (usable choice (timeLimit s.attribute?)) more f
      else Broken more f := by
  cases hsounded with
  | healthy _ hsome hall hsound =>
    have htail : (sounding ++ more).tail = sounding.tail ++ more := List.tail_append_of_ne_nil hsome
    have hmore (h : Broken (sounding ++ more) f) : Broken more f := (broken_append.mp h).resolve_left (hsound f)
    cases htruth : s.containerName.truth with
    | true =>
      rw [if_pos rfl]
      constructor
      · rintro (h | h | ⟨-, -, hall', hsound', h⟩)
        · exact .broken (hmore h)
        · rw [htail] at h
          exact .unconnected ((List.mem_append.mp h).resolve_left (hopened _ _))
        · have hlimited := (usable_error hs.controlTimeout hplane).mpr ⟨h, rfl⟩
          exact .limitless (List.forall_mem_append.mp hall').2 (fun e he => hsound' e (broken_append.mpr (.inr he)))
            hlimited
      · rintro (h | h | ⟨hall', hsound', h⟩)
        · exact .broken (broken_append.mpr (.inr h))
        · exact .unconnected (htail ▸ List.mem_append_right _ h)
        · obtain ⟨hlimitless, rfl⟩ := (usable_error hs.controlTimeout hplane).mp h
          refine .limitless htruth (List.append_ne_nil_of_left_ne_nil hsome _)
            (List.forall_mem_append.mpr ⟨hall, hall'⟩) (fun e he => ?_) hlimitless
          exact (broken_append.mp he).elim (hsound e) (hsound' e)
    | false =>
      rw [if_neg Bool.false_ne_true]
      constructor
      · -- An image is looked for without a connection.
        rintro (h | h | ⟨hattached, -⟩)
        · exact hmore h
        · obtain ⟨l, ending, rfl⟩ := himage htruth
          rw [htail] at h
          cases List.mem_singleton.mp ((List.mem_append.mp h).resolve_left (hopened _ _))
        · cases htruth.symm.trans hattached
      · exact fun h => .broken (broken_append.mpr (.inr h))

omit [Clock ω Double] in
theorem does_daemonHealth (hshell : shell.Proper) (hclient : client.Sincere) (choice : Choice) (binary : String) :
    Does (daemonHealth shell.consulted client.consulted choice binary) env fun r added _ =>
      Sounded added r ∧ ∀ limit r, .fromEnv limit r ∉ added.tail := by
  cases choice with
  | cli => exact (does_checkHealth_cli hshell _ _).mono fun r added _ h => ⟨h.1, h.2.1⟩
  | api => exact (does_checkHealth_api hclient).mono fun r added _ h => ⟨h.1, h.2.1⟩

theorem does_examine (hshell : shell.Proper) (hclient : client.Sincere) (hs : s.Typed)
    (hplane : s.controlPlane = .text choice.name) :
    Does (examine shell.consulted client.consulted s.attribute? (timeLimit s.attribute?)) env
      fun out added _ => ∀ f, out = .error f ↔ Undiagnosed s added f := by
  obtain ⟨name, hname⟩ := hs.dockerBinary
  have hbinary : ∃ text, Doctor.binary s.attribute? = .ok text := by
    show ∃ text, textOr s.dockerBinary "docker" = .ok text
    rw [hname, textOr]
    split <;> exact ⟨_, rfl⟩
  obtain ⟨text, htext⟩ := hbinary
  have hcontrol : controlPlaneName s.attribute? = .ok choice.name := by
    show (textOr s.controlPlane "docker-cli").map Text.lower = .ok choice.name
    rw [hplane]
    cases choice <;> rfl
  unfold examine
  rw [hcontrol, htext]
  refine .step (t := env) rfl rfl (.step (t := env) rfl rfl ?_)
  rw [choice?_eq_some_iff.mpr rfl]
  refine .bind (does_daemonHealth hshell hclient choice text) ?_ ?_
  · rintro ⟨healthy, detail⟩ sounding env₁ ⟨hsounded, hopened⟩
    -- An environment is looked for only where the daemon is healthy.
    cases healthy with
    | false =>
      cases hsounded with
      | unhealthy _ hfail hsound =>
        refine .pure fun f => iff_of_false nofun ?_
        rw [List.append_nil]
        rintro (h | h | ⟨-, hsome, hall, -⟩)
        · exact hsound f h
        · exact hopened _ _ h
        · obtain rfl | ⟨c, hc, hfail⟩ := hfail
          · exact hsome rfl
          · cases hfail.symm.trans (hall c hc)
    | true =>
      refine .bind (does_environmentCheck hshell hclient hs text) ?_ ?_
      · rintro environment more env₂ ⟨hout, himage⟩
        refine .pure fun f => ?_
        rw [List.append_nil, undiagnosed_append hs hplane hsounded hopened himage, ← hout f]
        exact iff_of_false nofun nofun
      · rintro e more env₂ ⟨hout, himage⟩ f
        rw [undiagnosed_append hs hplane hsounded hopened himage, ← hout f]
        simp only [Except.error.injEq]
  · rintro e sounding env₁ ⟨hsounded, hopened⟩ f
    cases hsounded with
    | broken h =>
      rw [Except.error.injEq]
      constructor
      · rintro rfl
        exact .broken ((h e).mpr rfl)
      · rintro (h' | h' | ⟨-, -, -, hsound, -⟩)
        · exact ((h _).mp h').symm
        · exact absurd h' (hopened _ _)
        · exact absurd ((h e).mpr rfl) (hsound e)

/-- The diagnosis of a valid configuration gives checks, save that it fails in these ways. -/
theorem run_fails_iff {σ : Type} {c : Config} (hshell : shell.Proper) (hclient : client.Sincere)
    (ht : c.sandbox.Typed) (hvalid : Config.validate c = .ok ())
    (part : σ → Env (Rack (Consulted ω Double) Double) Double)
    (put : Env (Rack (Consulted ω Double) Double) Double → σ → σ) (probe : Option (Act σ (Failure Double) String))
    (hprobe : ∀ p ∈ probe, ∀ t f, (p t).1 = .error f → f.isA .playground = true) (t : σ) :
    let a := c.sandbox.attribute?
    ∃ consultations, (examine shell.consulted client.consulted a (timeLimit a) (part t)).2.world.outer.consultations =
        (part t).world.outer.consultations ++ consultations ∧
      ∀ f, (run shell.consulted client.consulted part put a (timeLimit a) probe t).1 = .error f ↔
        Undiagnosed c.sandbox consultations f := by
  intro a
  obtain ⟨choice, hplane⟩ := controlPlane_of_validate hvalid
  have hdoes : Does _ (part t) _ := does_examine hshell hclient ht hplane
  obtain ⟨consultations, hconsulted, h⟩ := hdoes
  refine ⟨consultations, hconsulted, fun f => ?_⟩
  rw [run_error_iff hprobe t]
  exact h f

end

def unclosable : Client Script.Host Double :=
  { Client.unreachable with
    fromEnv _ := pure ()
    close := Act.fail (.other .engine (some "boom")) }

theorem unclosable_sincere : unclosable.Sincere where
  fromEnv _ _ := trivial
  ping _ := rfl
  version _ := rfl
  lookUp _ _ := rfl
  close _ := rfl

theorem bare_proper : (Shell.bare : Shell Script.Host Double).careful.Proper := by
  intro l w _
  by_cases hl : l.IsPassable
  · have hmissing : ((Shell.bare : Shell Script.Host Double).careful.launch l w).1 =
        (Shell.bare.launch l w).1 := congrArg Prod.fst (if_pos hl)
    rw [hmissing]
    exact .inl ⟨hl, .inl rfl⟩
  · have hrefused : ((Shell.bare : Shell Script.Host Double).careful.launch l w).1 = .failed (.other .value none) :=
      congrArg Prod.fst (if_neg hl)
    rw [hrefused]
    exact .inr rfl

def remote : Config := { sandbox := { controlPlane := .text "docker-api" } }

theorem remote_valid : Config.validate remote = .ok () := by
  have hdefault := Config.validate_eq_ok.mp Config.validate_default
  apply Config.validate_eq_ok.mpr
  exact List.forall_mem_cons.mpr ⟨rfl, fun k hk => hdefault k (List.mem_cons_of_mem _ hk)⟩

theorem remote_typed : remote.sandbox.Typed :=
  { Config.typed_default.sandbox with controlPlane := ⟨_, rfl⟩ }

theorem run_fails_iff_unclosable :
    let a := remote.sandbox.attribute?
    (run Shell.bare.careful.consulted unclosable.consulted id (fun env _ => env) a (timeLimit a) none
      { world := { outer := { world := ⟨[]⟩ } } }).1 = .error (.other .engine (some "boom")) := by
  intro a
  obtain ⟨consultations, hconsulted, h⟩ := run_fails_iff bare_proper unclosable_sincere remote_typed remote_valid
    id (fun env _ => env) none nofun { world := { outer := { world := ⟨[]⟩ } } }
  have heq : consultations = [.fromEnv 3 (.ok ()),
      .ping (.error (.other .engine (some "the engine cannot be reached"))),
      .close (.error (.other .engine (some "boom")))] :=
    hconsulted.symm
  rw [h, heq]
  exact .broken ⟨_, by simp, .unclosed _⟩

theorem run_not_total : ¬ ∀ (shell : Shell Script.Host Double) (client : Client Script.Host Double) (c : Config),
    shell.Proper → client.Sincere → c.sandbox.Typed → Config.validate c = .ok () →
      ∃ checks, (run shell client id (fun env _ => env) c.sandbox.attribute? (timeLimit c.sandbox.attribute?) none
        { world := { outer := ⟨[]⟩ } }).1 = .ok checks := by
  intro h
  obtain ⟨checks, hchecks⟩ := h Shell.bare.careful unclosable remote bare_proper unclosable_sincere remote_typed
      remote_valid
  have hfails : (run Shell.bare.careful unclosable id (fun env _ => env) remote.sandbox.attribute?
      (timeLimit remote.sandbox.attribute?) none { world := { outer := ⟨[]⟩ } }).1 =
      .error (.other .engine (some "boom")) := rfl
  cases hchecks.symm.trans hfails

end Playpen.Docker.Doctor
