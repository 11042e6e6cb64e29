import Playpen.Config.Engine
import Playpen.Docker.Doctor
import Playpen.Proofs.Docker.Choice
import Playpen.Proofs.Engine.Tracing

namespace Playpen.Docker

def Check.Sound (c : Check) : Prop := c.recommendation.isSome ↔ c.status ≠ .pass

namespace Doctor

variable {ω τ σ : Type} [Seconds τ] [Clock ω τ] {shell : Shell ω τ} {client : Client ω τ}

section

omit [Seconds τ] [Clock ω τ]

theorem daemonCheck_sound (healthy : Bool) (detail : String) : (daemonCheck healthy detail).Sound := by
  cases healthy <;> simp [daemonCheck, Check.Sound]

theorem attachedCheck_sound (container : String) (running : Bool) : (attachedCheck container running).Sound := by
  cases running <;> simp [attachedCheck, Check.Sound]

theorem imageCheck_sound (image : String) (present : Bool) : (imageCheck image present).Sound := by
  cases present <;> simp [imageCheck, Check.Sound]

theorem networkCheck_sound (enabled : Bool) : (networkCheck enabled).Sound := by
  cases enabled <;> simp [networkCheck, Check.Sound]

theorem privilegeCheck_sound (privileged : Bool) : (privilegeCheck privileged).Sound := by
  cases privileged <;> simp [privilegeCheck, Check.Sound]

theorem configuredCheck_sound (name : String) : (configuredCheck name).Sound := by
  unfold configuredCheck
  cases choice? name <;> simp [Check.Sound]

theorem toolchainCheck_name [Seconds τ] (version : Except (Failure τ) String) :
    (toolchainCheck version).name = "toolchain" := by
  cases version <;> rfl

theorem toolchainCheck_sound [Seconds τ] (version : Except (Failure τ) String) : (toolchainCheck version).Sound := by
  cases version <;> simp [toolchainCheck, Check.Sound]

end

def environmentName (a : Attributes) : String :=
  if ((a "container_name").getD .null).truth then "attached_environment" else "sandbox_image"

def planned (a : Attributes) (probed : Bool) : List String :=
  ["configured_control_plane", "docker_daemon", environmentName a, "network_policy", "privilege_policy"] ++
    if probed then ["toolchain"] else []

inductive Examined (a : Attributes) (name : String) : List Check → Bool → Prop
  | unsupported (h : choice? name = none) : Examined a name [configuredCheck name] false
  | unhealthy {choice : Choice} (h : choice? name = some choice) (detail : String) :
    Examined a name [configuredCheck name, daemonCheck false detail] false
  | healthy {choice : Choice} {environment : Check} (h : choice? name = some choice) (detail : String)
    (hname : environment.name = environmentName a) (hsound : environment.Sound) :
    Examined a name [configuredCheck name, daemonCheck true detail, environment,
      networkCheck (setting a "network_enabled" (.bool false)).truth,
      privilegeCheck (setting a "privileged" (.bool false)).truth] true

theorem environmentCheck_ok {a : Attributes} {name binary : String} {limit : Except Misuse τ}
    {env env' : Env (Rack ω τ) τ} {c : Check}
    (h : environmentCheck shell client a name binary limit env = (.ok c, env')) :
    c.name = environmentName a ∧ c.Sound := by
  unfold environmentCheck setting at h
  unfold environmentName
  split at h
  · rename_i hattached
    rw [if_pos hattached]
    unfold attached at h
    obtain ⟨link, env₁, -, h⟩ := Act.ok_of_bind h
    obtain ⟨running, env₂, -, h⟩ := Act.ok_of_bind h
    obtain ⟨container, env₃, -, h⟩ := Act.ok_of_bind h
    cases h
    exact ⟨rfl, attachedCheck_sound _ _⟩
  · rename_i hown
    rw [if_neg hown]
    obtain ⟨image, env₁, -, h⟩ := Act.ok_of_bind h
    obtain ⟨present, env₂, -, h⟩ := Act.ok_of_bind h
    cases h
    exact ⟨rfl, imageCheck_sound _ _⟩

omit [Seconds τ] [Clock ω τ] in
theorem used_eq_ok_iff {α : Type} {r : Except Misuse α} {v : α} {env env' : Env (Rack ω τ) τ} :
    (Act.used r : Effect (Rack ω τ) τ α) env = (.ok v, env') ↔ r = .ok v ∧ env = env' := by
  cases r with
  | error m => exact iff_of_false nofun nofun
  | ok u =>
    show ((.ok u, env) : Except (Failure τ) α × Env (Rack ω τ) τ) = _ ↔ _
    rw [Prod.mk.injEq, Except.ok.injEq, Except.ok.injEq]

theorem examine_ok {a : Attributes} {limit : Except Misuse τ} {env env' : Env (Rack ω τ) τ} {checks : List Check}
    {complete : Bool} (h : examine shell client a limit env = (.ok (checks, complete), env')) :
    ∃ name, controlPlaneName a = .ok name ∧ Examined a name checks complete := by
  unfold examine at h
  obtain ⟨name, env₁, hname, h⟩ := Act.ok_of_bind h
  obtain ⟨binary, env₂, -, h⟩ := Act.ok_of_bind h
  refine ⟨name, (used_eq_ok_iff.mp hname).1, ?_⟩
  cases hchoice : choice? name with
  | none =>
    rw [hchoice] at h
    cases h
    exact .unsupported hchoice
  | some choice =>
    rw [hchoice] at h
    obtain ⟨⟨healthy, detail⟩, env₃, -, h⟩ := Act.ok_of_bind h
    cases healthy with
    | false =>
      cases h
      exact .unhealthy hchoice detail
    | true =>
      obtain ⟨environment, env₄, henvironment, h⟩ := Act.ok_of_bind h
      obtain ⟨hname, hsound⟩ := environmentCheck_ok henvironment
      cases h
      exact .healthy hchoice detail hname hsound

def watched (probe : Act σ (Failure τ) String) : Act (σ × List σ) (Failure τ) String := fun p =>
  let (r, s) := probe p.1
  (r, s, p.2 ++ [p.1])

def runWatched (shell : Shell ω τ) (client : Client ω τ) (part : σ → Env (Rack ω τ) τ) (put : Env (Rack ω τ) τ → σ → σ)
    (a : Attributes) (limit : Except Misuse τ) (probe : Option (Act σ (Failure τ) String)) :
    Act (σ × List σ) (Failure τ) (List Check) :=
  run shell client (fun p => part p.1) (fun env p => (put env p.1, p.2)) a limit (probe.map watched)

variable {part : σ → Env (Rack ω τ) τ} {put : Env (Rack ω τ) τ → σ → σ} {a : Attributes} {limit : Except Misuse τ}
  {probe : Option (Act σ (Failure τ) String)} {s s' : σ} {env : Env (Rack ω τ) τ} {checks leading : List Check}

variable (put) in
theorem within_eq {r : Except (Failure τ) (List Check × Bool)}
    (h : examine shell client a limit (part s) = (r, env)) (asked : List σ) :
    Act.within part put (examine shell client a limit) s = (r, put env s) ∧
      Act.within (fun p : σ × List σ => part p.1) (fun env p => (put env p.1, p.2)) (examine shell client a limit)
        (s, asked) = (r, put env s, asked) := by
  constructor <;> simp only [Act.within, h]

theorem run_unprobed {complete : Bool} (h : examine shell client a limit (part s) = (.ok (leading, complete), env))
    (hnone : complete = false ∨ probe = none) (asked : List σ) :
    run shell client part put a limit probe s = (.ok leading, put env s) ∧
      runWatched shell client part put a limit probe (s, asked) = (.ok leading, put env s, asked) := by
  obtain ⟨hplain, hwatched⟩ := within_eq put h asked
  unfold run runWatched run
  rw [Act.bind_ok hplain, Act.bind_ok hwatched]
  obtain rfl | rfl := hnone
  · exact ⟨rfl, rfl⟩
  · cases complete <;> exact ⟨rfl, rfl⟩

theorem run_probed {probe : Act σ (Failure τ) String} {out : Except (Failure τ) String}
    (h : examine shell client a limit (part s) = (.ok (leading, true), env)) (hprobe : probe (put env s) = (out, s'))
    (hcaught : ∀ f, out = .error f → f.isA .playground = true) (asked : List σ) :
    run shell client part put a limit (some probe) s = (.ok (leading ++ [toolchainCheck out]), s') ∧
      runWatched shell client part put a limit (some probe) (s, asked) =
        (.ok (leading ++ [toolchainCheck out]), s', asked ++ [put env s]) := by
  obtain ⟨hplain, hwatched⟩ := within_eq put h asked
  have hout : probe.outcome (put env s) = (.ok out, s') := by rw [Act.outcome, hprobe]
  have hout' : (watched probe).outcome (put env s, asked) = (.ok out, s', asked ++ [put env s]) := by
    rw [Act.outcome, watched, hprobe]
  unfold run runWatched run
  rw [Act.bind_ok hplain, Act.bind_ok hwatched, Option.map_some]
  dsimp only
  rw [Act.bind_ok hout, Act.bind_ok hout']
  cases out with
  | ok version => exact ⟨rfl, rfl⟩
  | error f =>
    dsimp only
    rw [if_pos (hcaught f rfl), if_pos (hcaught f rfl)]
    exact ⟨rfl, rfl⟩

theorem run_error_iff {f : Failure τ}
    (hprobe : ∀ p ∈ probe, ∀ t f, (p t).1 = .error f → f.isA .playground = true) (s : σ) :
    (run shell client part put a limit probe s).1 = .error f ↔
      (examine shell client a limit (part s)).1 = .error f := by
  rcases hexamine : examine shell client a limit (part s) with ⟨e | ⟨leading, complete⟩, env⟩
  · have hwithin := (within_eq put hexamine []).1
    rw [run, Act.bind_error hwithin]
    simp only [Except.error.injEq]
  · refine iff_of_false ?_ nofun
    by_cases hnone : complete = false ∨ probe = none
    · rw [(run_unprobed hexamine hnone []).1]
      nofun
    · obtain ⟨hcomplete, hsome⟩ := not_or.mp hnone
      obtain rfl : complete = true := Bool.of_not_eq_false hcomplete
      obtain ⟨p, rfl⟩ := Option.ne_none_iff_exists'.mp hsome
      rcases hp : p (put env s) with ⟨out, t⟩
      have hcaught : ∀ f, out = .error f → f.isA .playground = true := fun f hf =>
        hprobe p rfl (put env s) f ((congrArg Prod.fst hp).trans hf)
      rw [(run_probed hexamine hp hcaught []).1]
      nofun

inductive Comes (shell : Shell ω τ) (client : Client ω τ) (part : σ → Env (Rack ω τ) τ) (put : Env (Rack ω τ) τ → σ → σ)
    (a : Attributes) (limit : Except Misuse τ) (probe : Option (Act σ (Failure τ) String)) (s : σ) :
    List Check → σ → Prop
  | unprobed {leading : List Check} {complete : Bool} {env : Env (Rack ω τ) τ}
    (h : examine shell client a limit (part s) = (.ok (leading, complete), env))
    (hnone : complete = false ∨ probe = none) :
    Comes shell client part put a limit probe s leading (put env s)
  | probed {leading : List Check} {env : Env (Rack ω τ) τ} {p : Act σ (Failure τ) String}
    {out : Except (Failure τ) String} {s' : σ} (h : examine shell client a limit (part s) = (.ok (leading, true), env))
    (hsome : probe = some p) (hp : p (put env s) = (out, s'))
    (hcaught : ∀ f, out = .error f → f.isA .playground = true) :
    Comes shell client part put a limit probe s (leading ++ [toolchainCheck out]) s'

theorem run_comes (h : run shell client part put a limit probe s = (.ok checks, s')) :
    Comes shell client part put a limit probe s checks s' := by
  rcases hexamine : examine shell client a limit (part s) with ⟨f | ⟨leading, complete⟩, env⟩
  · have hwithin := (within_eq put hexamine []).1
    rw [run, Act.bind_error hwithin] at h
    cases h
  · by_cases hnone : complete = false ∨ probe = none
    · rw [(run_unprobed hexamine hnone []).1] at h
      cases h
      exact .unprobed hexamine hnone
    · obtain ⟨hcomplete, hprobe⟩ := not_or.mp hnone
      obtain rfl : complete = true := Bool.of_not_eq_false hcomplete
      obtain ⟨p, rfl⟩ := Option.ne_none_iff_exists'.mp hprobe
      have hwithin := (within_eq put hexamine []).1
      rcases hp : p (put env s) with ⟨f | version, t⟩
      · by_cases hf : f.isA .playground = true
        · have hcaught : ∀ g, (.error f : Except (Failure τ) String) = .error g → g.isA .playground = true := by
            rintro _ ⟨⟩
            exact hf
          rw [(run_probed hexamine hp hcaught []).1] at h
          cases h
          exact .probed hexamine rfl hp hcaught
        · have hout : p.outcome (put env s) = (.ok (.error f), t) := by rw [Act.outcome, hp]
          rw [run, Act.bind_ok hwithin] at h
          dsimp only at h
          rw [Act.bind_ok hout] at h
          dsimp only at h
          rw [if_neg hf] at h
          cases h
      · have hcaught : ∀ g, (.ok version : Except (Failure τ) String) = .error g → g.isA .playground = true := by
          rintro _ ⟨⟩
        rw [(run_probed hexamine hp hcaught []).1] at h
        cases h
        exact .probed hexamine rfl hp hcaught

section

omit [Seconds τ] [Clock ω τ]

variable {name : String} {choice : Choice}

theorem configuredCheck_name (name : String) : (configuredCheck name).name = "configured_control_plane" := by
  unfold configuredCheck
  cases choice? name <;> rfl

theorem configuredCheck_none (h : choice? name = none) : (configuredCheck name).status = .fail := by
  rw [configuredCheck, h]

theorem configuredCheck_some (h : choice? name = some choice) : (configuredCheck name).status = .pass := by
  rw [configuredCheck, h]

theorem Examined.sound {complete : Bool} (h : Examined a name leading complete) : ∀ c ∈ leading, c.Sound := by
  cases h with
  | unsupported h =>
    simp only [List.forall_mem_cons]
    exact ⟨configuredCheck_sound _, List.forall_mem_nil _⟩
  | unhealthy h detail =>
    simp only [List.forall_mem_cons]
    exact ⟨configuredCheck_sound _, daemonCheck_sound _ _, List.forall_mem_nil _⟩
  | healthy h detail hname hsound =>
    simp only [List.forall_mem_cons]
    exact ⟨configuredCheck_sound _, daemonCheck_sound _ _, hsound, networkCheck_sound _, privilegeCheck_sound _,
      List.forall_mem_nil _⟩

def InOrder (a : Attributes) (probed : Bool) (checks : List Check) : Prop :=
  checks.map Check.name = match (checks.take 2).findIdx? (·.status = .fail) with
    | some i => (planned a probed).take (i + 1)
    | none => planned a probed

theorem Examined.inOrder_cut (h : Examined a name leading false) (probed : Bool) :
    InOrder a probed leading ∧ leading[1]?.map Check.status ≠ some .pass := by
  cases h with
  | unsupported h =>
    simp [InOrder, List.findIdx?_cons, configuredCheck_none h, configuredCheck_name, planned]
  | unhealthy h detail =>
    simp [InOrder, List.findIdx?_cons, configuredCheck_some h, configuredCheck_name, planned, daemonCheck]

theorem Examined.inOrder (h : Examined a name leading true) :
    InOrder a false leading ∧ leading[1]?.map Check.status = some .pass ∧
      ∀ c : Check, c.name = "toolchain" → InOrder a true (leading ++ [c]) ∧
        (leading ++ [c])[1]?.map Check.status = some .pass := by
  cases h with
  | healthy h detail hname hsound =>
    refine ⟨?_, rfl, fun c hc => ⟨?_, rfl⟩⟩
    · simp [InOrder, List.findIdx?_cons, configuredCheck_some h, configuredCheck_name, planned, daemonCheck, hname,
        networkCheck, privilegeCheck]
    · simp [InOrder, List.findIdx?_cons, configuredCheck_some h, configuredCheck_name, planned, daemonCheck, hname,
        networkCheck, privilegeCheck, hc]

end

theorem Comes.inOrder (h : Comes shell client part put a limit probe s checks s') :
    InOrder a probe.isSome checks ∧ (∀ c ∈ checks, c.Sound) ∧
      runWatched shell client part put a limit probe (s, []) = (.ok checks, s',
        if probe.isSome ∧ checks[1]?.map Check.status = some .pass
          then [put (examine shell client a limit (part s)).2 s] else []) := by
  cases h with
  | @unprobed _ complete env hexamine hnone =>
    obtain ⟨name, -, hexamined⟩ := examine_ok hexamine
    refine ⟨?_, hexamined.sound, ?_⟩
    · cases complete with
      | false => exact (hexamined.inOrder_cut _).1
      | true =>
        obtain rfl := hnone.resolve_left Bool.noConfusion
        exact hexamined.inOrder.1
    · rw [(run_unprobed hexamine hnone []).2, if_neg]
      rintro ⟨hsome, hpass⟩
      obtain rfl | rfl := hnone
      · exact (hexamined.inOrder_cut true).2 hpass
      · cases hsome
  | @probed _ env p out _ hexamine hsome hp hcaught =>
    subst hsome
    obtain ⟨name, -, hexamined⟩ := examine_ok hexamine
    obtain ⟨horder, hpass⟩ := hexamined.inOrder.2.2 _ (toolchainCheck_name out)
    refine ⟨horder, ?_, ?_⟩
    · exact List.forall_mem_append.mpr ⟨hexamined.sound, List.forall_mem_singleton.mpr (toolchainCheck_sound out)⟩
    · rw [(run_probed hexamine hp hcaught []).2, if_pos ⟨rfl, hpass⟩, hexamine]
      rfl

/-- The checks of a diagnosis are the planned ones up to the first of the leading two that fails. Each has a
recommendation unless it passed. The probe is asked once if the daemon turned out to be healthy, and else not. -/
theorem run_checks (h : run shell client part put a limit probe s = (.ok checks, s')) :
    (checks.map Check.name = match (checks.take 2).findIdx? (·.status = .fail) with
      | some i => (planned a probe.isSome).take (i + 1)
      | none => planned a probe.isSome) ∧
    (∀ c ∈ checks, c.status.name ∈ ["pass", "warn", "fail"] ∧ (c.recommendation.isSome ↔ c.status ≠ .pass)) ∧
    runWatched shell client part put a limit probe (s, []) = (.ok checks, s',
      if probe.isSome ∧ checks[1]?.map Check.status = some .pass
        then [put (examine shell client a limit (part s)).2 s] else []) := by
  obtain ⟨horder, hsound, hasked⟩ := (run_comes h).inOrder
  refine ⟨horder, fun c hc => ⟨?_, hsound c hc⟩, hasked⟩
  cases c.status <;> decide

def cheerful : Env (Rack Script.Host Double) Double := { world := { outer := ⟨[]⟩ } }

def attended : Env (Rack Script.Host Double) Double :=
  { world := { outer := ⟨[.exited 0 (some []) (some []), .exited 0 (some (Utf8.encodeString "true\n")) (some [])]⟩ } }

theorem run_checks_attended :
    let a := Config.Sandbox.attribute? { containerName := .text "box" }
    let diagnosis := run Script.shell Script.client id (fun env _ => env) a (.ok (Double.ofInt 30))
      (some (pure "yzc 1.0")) attended
    ∃ checks, diagnosis.1 = .ok checks ∧ checks.map Check.name = ["configured_control_plane", "docker_daemon",
      "attached_environment", "network_policy", "privilege_policy", "toolchain"] := by
  intro a diagnosis
  have h : diagnosis = (.ok [
      { name := "configured_control_plane", status := .pass, detail := "Control plane set to 'docker-cli'." },
      { name := "docker_daemon", status := .pass, detail := "docker daemon ready (server unknown)" },
      { name := "attached_environment", status := .pass, detail := "Container 'box' is running." },
      { name := "network_policy", status := .pass, detail := "Environment networking is disabled." },
      { name := "privilege_policy", status := .pass, detail := "Environments run unprivileged." },
      { name := "toolchain", status := .pass, detail := "yzc 1.0" }], diagnosis.2) := rfl
  exact ⟨_, congrArg Prod.fst h, (run_checks h).1⟩

end Doctor

end Playpen.Docker
