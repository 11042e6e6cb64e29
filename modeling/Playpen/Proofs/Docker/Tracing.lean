import Playpen.Proofs.Plane.Tracing

namespace Playpen.Docker

open Act (Agree InStep)
open Likeness (ofTracing)
open Utf8 (Bytes)

variable {ω τ α : Type}

def isWord : Value → Bool
  | .text _ | .bytes _ => true
  | _ => false

def Launch.WellTyped (l : Launch τ) : Prop := ∀ v ∈ l.words, isWord v = true

instance (l : Launch τ) : Decidable l.WellTyped := inferInstanceAs (Decidable (∀ v ∈ l.words, isWord v = true))

def Shell.Refuses (shell : Shell ω τ) : Prop :=
  ∀ l w, l.WellTyped ∨ (shell.launch l w).1 = .failed (.other .type none)

def Shell.strict (shell : Shell ω τ) : Shell ω τ where
  launch l w := if l.WellTyped then shell.launch l w else (.failed (.other .type none), w)
  which := shell.which

theorem Shell.strict_refuses (shell : Shell ω τ) : shell.strict.Refuses := by
  intro l w
  by_cases hl : l.WellTyped
  · exact .inl hl
  · exact .inr (congrArg Prod.fst (if_neg hl))

structure Launched (ω τ : Type) where
  world : ω
  launches : List (Launch τ) := []

instance [Clock ω τ] : Clock (Launched ω τ) τ where
  now w := Clock.now w.world
  wall w := Clock.wall w.world

def Shell.watched (shell : Shell ω τ) : Shell (Launched ω τ) τ where
  launch l w :=
    let (ending, world) := shell.launch l w.world
    (ending, ⟨world, w.launches ++ [l]⟩)
  which binary w := shell.which binary w.world

theorem Shell.Refuses.watched {shell : Shell ω τ} (h : shell.Refuses) : shell.watched.Refuses :=
  fun l w => h l w.world

theorem traceable_of_isWord {id : EnvironmentId} (h : isWord id = true) : Env.Traceable (some id) := by
  have shortened : ∃ place, shortId id = .ok place := by
    unfold isWord at h
    split at h
    · exact ⟨_, rfl⟩
    · exact ⟨_, rfl⟩
    · cases h
  unfold Env.Traceable Env.shown
  dsimp only
  split
  · exact shortened
  · exact ⟨_, rfl⟩

variable [Seconds τ] [Clock ω τ]

def Rack.CliOnly (r : Rack ω τ) : Prop := ∀ c ∈ r.connections, c.choice = .cli

abbrev cliTracing : Likeness (Rack ω τ) τ := ofTracing Rack.CliOnly

namespace Cli

variable {shell : Shell ω τ} (hshell : shell.Refuses) (c : Cli τ)
include hshell

theorem run_traced (l : Launch τ) :
    InStep cliTracing.Envs Eq (fun e e' => e = e' ∧ (l.WellTyped ∨ e = .failed (.other .type none)))
      (shell.onRack.run l) (shell.onRack.run l) := by
  rintro ⟨w, log, tracer, drawn⟩ ⟨w', log', tracer', drawn'⟩ ⟨⟨rfl, hw⟩, _, hlog, rfl⟩
  exact ⟨.ok ⟨rfl, hshell l w.outer⟩, ⟨⟨rfl, hw⟩, trivial, hlog, rfl⟩⟩

theorem ask_traced {args : List Value} {operation : String} {id : Option EnvironmentId} {input : Option Bytes}
    {allowed : List Int} (hid : (∀ v ∈ args, isWord v = true) → Env.Traceable id) :
    InStep cliTracing.Envs Eq (fun o o' => o = o' ∧ ∀ v ∈ args, isWord v = true)
      (c.ask shell.onRack args operation id input allowed)
      (c.ask shell.onRack args operation id input allowed) := by
  refine .bind Likeness.now ?_
  rintro start _ rfl
  refine .bind (run_traced hshell _) ?_
  -- A launch that was made had nothing but words, so the environment among them can be shown to the tracer;
  -- one that was refused is not traced.
  rintro e _ ⟨rfl, hwords | rfl⟩
  · have traced (error : Option String) :=
      Likeness.traceSince (I := (Rack.CliOnly : Rack ω τ → Prop)) (hid hwords) operation start error
    cases e with
    | failed cause => exact .throw rfl
    | timedOut => exact .bind (traced _) fun _ _ _ => .throw rfl
    | exited status output error =>
      refine .ite .rfl (fun _ => ?_) fun _ => ?_
      · exact .bind (traced _) fun _ _ _ => .pure ⟨rfl, hwords⟩
      · exact .bind (traced _) fun _ _ _ => .throw rfl
  · exact .throw rfl

theorem create_traced (spec : EnvironmentSpec) :
    InStep cliTracing.Envs Eq (fun id id' => id = id' ∧ isWord id = true) (c.create shell.onRack spec)
      (c.create shell.onRack spec) := by
  refine .bind (.lift_refl _) ?_
  rintro words _ rfl
  refine .bind (ask_traced hshell c fun _ => ⟨_, rfl⟩) ?_
  rintro output _ ⟨rfl, _⟩
  refine .bind (.lift_refl _) ?_
  rintro text _ rfl
  refine .ite .rfl (fun _ => ?_) fun _ => .pure ⟨rfl, rfl⟩
  exact .bind (V := fun _ _ => True) (.throw rfl) fun _ _ _ => .pure ⟨rfl, rfl⟩

theorem inject_traced {id : EnvironmentId} (hid : Env.Traceable (some id)) (dest : Value) (archive : Bytes) :
    InStep cliTracing.Envs Eq Eq (c.inject shell.onRack id dest archive)
      (c.inject shell.onRack id dest archive) := by
  refine .bind (.lift_refl _) ?_
  rintro place _ rfl
  refine .bind (.lift_refl _) ?_
  rintro dest _ rfl
  -- The environment is no word of this launch, only part of one, so that its words do not say what it is.
  exact .bind (ask_traced hshell c fun _ => hid) fun _ _ _ => .pure rfl

theorem exec_traced (id : EnvironmentId) (command : Command τ) :
    InStep cliTracing.Envs Eq Eq (c.exec shell.onRack id command) (c.exec shell.onRack id command) := by
  refine .bind Likeness.now ?_
  rintro start _ rfl
  refine .bind (run_traced hshell _) ?_
  rintro e _ ⟨rfl, hwords | rfl⟩
  · have hid : Env.Traceable (some id) := traceable_of_isWord (hwords id (by simp [execArgs]))
    have traced := Likeness.traceSince (I := (Rack.CliOnly : Rack ω τ → Prop)) hid "exec" start
    cases e with
    | timedOut => exact .bind (traced _) fun _ _ _ => .throw rfl
    | exited status output error => exact .bind (traced _) fun _ _ _ => .pure rfl
    | failed cause =>
      refine .ite .rfl (fun _ => .throw rfl) fun _ => .ite .rfl (fun _ => ?_) fun _ => .throw rfl
      exact .bind (traced _) fun _ _ _ => .throw rfl
  · exact .ite .rfl (fun _ => .throw rfl) fun _ => .ite .rfl (fun h => nomatch h) fun _ => .throw rfl

theorem terminate_traced (id : EnvironmentId) (user : Value) :
    InStep cliTracing.Envs Eq Eq (c.terminate shell.onRack id user) (c.terminate shell.onRack id user) :=
  .bind (ask_traced hshell c fun h => traceable_of_isWord (h id (by simp))) fun _ _ _ => .pure rfl

theorem isRunning_traced (id : EnvironmentId) :
    InStep cliTracing.Envs Eq (fun b b' => b = b' ∧ (b = true → isWord id = true)) (c.isRunning shell.onRack id)
      (c.isRunning shell.onRack id) := by
  refine .bind (ask_traced hshell c fun h => traceable_of_isWord (h id (by simp))).outcome fun r r' hr => ?_
  cases hr with
  | ok h =>
    obtain ⟨rfl, hwords⟩ := h
    refine .bind (.lift_refl _) ?_
    rintro text _ rfl
    exact .pure ⟨rfl, fun _ => hwords id (by simp)⟩
  | error h =>
    cases h
    exact .ite .rfl (fun _ => .pure ⟨rfl, fun h => absurd h Bool.false_ne_true⟩) fun _ => .throw rfl

theorem memoryUsage_traced (id : EnvironmentId) :
    InStep cliTracing.Envs Eq Eq (c.memoryUsage shell.onRack id) (c.memoryUsage shell.onRack id) := by
  refine .bind (ask_traced hshell c fun h => traceable_of_isWord (h id (by simp))) ?_
  rintro output _ ⟨rfl, _⟩
  refine .bind (.lift_refl _) ?_
  rintro text _ rfl
  exact .lift_refl _

theorem remove_traced (id : EnvironmentId) :
    InStep cliTracing.Envs Eq Eq (c.remove shell.onRack id) (c.remove shell.onRack id) :=
  .bind (ask_traced hshell c fun h => traceable_of_isWord (h id (by simp))) fun _ _ _ => .pure rfl

end Cli

theorem connection_traced (l : Link) :
    InStep cliTracing.Envs Eq (fun c c' : Connection τ => c = c' ∧ c.choice = .cli) (connection (ω := ω) l)
      (connection l) := by
  refine .bind (V := fun o o' => o = o' ∧ ∀ c ∈ o, c.choice = .cli) (.read fun env env' he => ?_) ?_
  · obtain ⟨hworld, hcli⟩ := he.world
    rw [hworld]
    exact ⟨rfl, fun c hc => hcli c (hworld ▸ List.mem_of_getElem? hc)⟩
  · rintro (_ | c) _ ⟨rfl, hc⟩
    · exact .throw rfl
    · exact .pure ⟨rfl, hc c rfl⟩

theorem over_traced {α : Type} {V : α → α → Prop} {cli : Cli τ → Effect (Rack ω τ) τ α}
    {api : τ → Workers → Effect (Rack ω τ) τ α} (l : Link)
    (h : ∀ c, InStep cliTracing.Envs Eq V (cli c) (cli c)) :
    InStep cliTracing.Envs Eq V
      (connection l >>= fun | .cli c => cli c | .api limit w => api limit w)
      (connection l >>= fun | .cli c => cli c | .api limit w => api limit w) := by
  refine .bind (connection_traced l) ?_
  rintro (c | ⟨limit, w⟩) _ ⟨rfl, hc⟩
  · exact h c
  · cases hc

theorem register_traced (c : Cli τ) :
    InStep cliTracing.Envs Eq Eq (register (ω := ω) (.cli c)) (register (.cli c)) := by
  rintro ⟨w, log, tracer, drawn⟩ ⟨w', log', tracer', drawn'⟩ ⟨⟨rfl, hw⟩, _, hlog, rfl⟩
  refine ⟨.ok rfl, ⟨rfl, ?_⟩, trivial, hlog, rfl⟩
  exact List.forall_mem_append.mpr ⟨hw, List.forall_mem_singleton.mpr rfl⟩

theorem establish_traced (client : Client ω τ) {r : Request τ}
    (hcli : normalized (τ := τ) r.name = .ok Choice.cli.name) :
    InStep cliTracing.Envs Eq Eq (establish client r) (establish client r) := by
  refine .bind (V := fun name name' => name = Choice.cli.name ∧ name' = Choice.cli.name)
    (.lift (hcli ▸ .ok ⟨rfl, rfl⟩)) ?_
  rintro _ _ ⟨rfl, rfl⟩
  refine .bind (.lift_refl _) ?_
  rintro limit _ rfl
  have hchoice : choice? Choice.cli.name = some .cli := by decide
  rw [hchoice]
  refine .bind (.lift_refl _) ?_
  rintro binary _ rfl
  exact register_traced _

theorem plane_traced {shell : Shell ω τ} (hshell : shell.Refuses) (client : Client ω τ) {settings : Settings τ}
    (hcli : normalized (τ := τ) settings.controlPlane = .ok Choice.cli.name) :
    ((plane shell client).bound settings).AlikeOn cliTracing (fun id => Env.Traceable (some id))
      ((plane shell client).bound settings) where
  connect _ := establish_traced client hcli
  create l spec := over_traced l fun c =>
    (Cli.create_traced hshell c spec).mono (fun _ _ h => h) fun _ _ ⟨h, hid⟩ => ⟨h, traceable_of_isWord hid⟩
  inject l _ dest archive hid := over_traced l fun c => Cli.inject_traced hshell c hid dest archive
  exec l id command := over_traced l fun c =>
    (Cli.exec_traced hshell c id command).mono (fun _ _ h => h) fun _ _ h => h ▸ ⟨rfl, rfl⟩
  terminate l id user := over_traced l fun c => Cli.terminate_traced hshell c id user
  isRunning l id := over_traced l fun c =>
    (Cli.isRunning_traced hshell c id).mono (fun _ _ h => h) fun _ _ ⟨h, hid⟩ =>
      ⟨h, fun hb => traceable_of_isWord (hid hb)⟩
  memoryUsage l id := over_traced l fun c =>
    (Cli.memoryUsage_traced hshell c id).bind fun _ _ h => .pure (congrArg Value.int h)
  remove l id := over_traced l fun c => Cli.remove_traced hshell c id
  close l := over_traced l fun _ => .pure rfl

end Playpen.Docker
