import Playpen.Config.Layers
import Playpen.Proofs.Act

namespace Playpen.Config

section

variable {ε α β : Type}

theorem ok_of_bind {x : Except ε α} {f : α → Except ε β} {b : β} (h : x >>= f = .ok b) :
    ∃ a, x = .ok a ∧ f a = .ok b := by
  cases x with
  | error e => cases h
  | ok a => exact ⟨a, rfl, h⟩

def Fails (P : ε → Prop) (x : Except ε α) : Prop := ∀ e, x = .error e → P e

variable {P : ε → Prop}

theorem Fails.ok (a : α) : Fails P (.ok a : Except ε α) := nofun

theorem Fails.error {e : ε} (h : P e) : Fails P (.error e : Except ε α) := by
  rintro _ ⟨⟩
  exact h

end

def Reported (f : Fault) : Prop := ∃ message, f = .configuration message

def Foreign (f : Fault) : Prop := ∃ kind, f = .other kind none

def Told (f : Fault) : Prop := Reported f ∨ Foreign f

theorem Reported.not_foreign {f : Fault} (h : Reported f) (kind : Kind) : f ≠ .other kind none := by
  obtain ⟨message, rfl⟩ := h
  exact nofun

structure Check where
  question : Except Misuse Bool
  message : String

namespace Check

def run (k : Check) : Except Fault Unit :=
  used k.question >>= fun yes => if yes then reject k.message else .ok ()

def runAll : List Check → Except Fault Unit
  | [] => .ok ()
  | k :: rest => k.run >>= fun _ => runAll rest

theorem runAll_cons_of_no {k : Check} (h : k.question = .ok false) (rest : List Check) :
    runAll (k :: rest) = runAll rest := by
  rw [runAll, run, h]
  rfl

theorem runAll_cons_of_yes {k : Check} (h : k.question = .ok true) (rest : List Check) :
    runAll (k :: rest) = .error (.configuration k.message) := by
  rw [runAll, run, h]
  rfl

theorem runAll_cons_of_stuck {k : Check} {m : Misuse} (h : k.question = .error m) (rest : List Check) :
    runAll (k :: rest) = .error m.failure := by
  rw [runAll, run, h]
  rfl

theorem runAll_eq_ok {ks : List Check} : runAll ks = .ok () ↔ ∀ k ∈ ks, k.question = .ok false := by
  induction ks with
  | nil => simp [runAll]
  | cons k rest ih =>
    rw [List.forall_mem_cons]
    rcases h : k.question with m | (_ | _)
    · simp [runAll_cons_of_stuck h]
    · simp [runAll_cons_of_no h, ih]
    · simp [runAll_cons_of_yes h]

def Answered (ks : List Check) : Prop := ∀ k ∈ ks, ∃ yes, k.question = .ok yes

theorem runAll_reported {ks : List Check} (h : Answered ks) : Fails Reported (runAll ks) := by
  induction ks with
  | nil => exact .ok ()
  | cons k rest ih =>
    obtain ⟨⟨yes, hk⟩, hrest⟩ := List.forall_mem_cons.mp h
    cases yes with
    | false =>
      rw [runAll_cons_of_no hk]
      exact ih hrest
    | true =>
      rw [runAll_cons_of_yes hk]
      exact .error ⟨_, rfl⟩

inductive Stuck : List Check → Kind → Prop
  | here {k : Check} {m : Misuse} {rest : List Check} (h : k.question = .error m) : Stuck (k :: rest) m.kind
  | later {k : Check} {kind : Kind} {rest : List Check} (h : k.question = .ok false)
    (hrest : Stuck rest kind) : Stuck (k :: rest) kind

theorem runAll_of_stuck {ks : List Check} {kind : Kind} (h : Stuck ks kind) :
    runAll ks = .error (.other kind none) := by
  induction h with
  | here h => exact runAll_cons_of_stuck h _
  | later h _ ih => rw [runAll_cons_of_no h, ih]

theorem Stuck.not_answered {ks : List Check} {kind : Kind} (h : Stuck ks kind) : ¬ Answered ks := by
  intro ha
  exact (runAll_reported ha _ (runAll_of_stuck h)).not_foreign kind rfl

theorem stuck_of_runAll {ks : List Check} {kind : Kind} (h : runAll ks = .error (.other kind none)) :
    Stuck ks kind := by
  induction ks with
  | nil => cases h
  | cons k rest ih =>
    rcases hk : k.question with m | (_ | _)
    · rw [runAll_cons_of_stuck hk] at h
      cases h
      exact .here hk
    · rw [runAll_cons_of_no hk] at h
      exact .later hk (ih h)
    · rw [runAll_cons_of_yes hk] at h
      cases h

theorem runAll_told (ks : List Check) : Fails Told (runAll ks) := by
  induction ks with
  | nil => exact .ok ()
  | cons k rest ih =>
    rcases h : k.question with m | (_ | _)
    · rw [runAll_cons_of_stuck h]
      exact .error (.inr ⟨m.kind, rfl⟩)
    · rw [runAll_cons_of_no h]
      exact ih
    · rw [runAll_cons_of_yes h]
      exact .error (.inl ⟨k.message, rfl⟩)

end Check

open Check (runAll)

def controlPlaneCheck (v : Value) : Check where
  question := if namesControlPlane v then .ok false else (Docker.unsupported v).map fun _ => true
  message := (Docker.unsupported v).toOption.getD ""

def checks (c : Config) : List Check := [
  controlPlaneCheck c.sandbox.controlPlane,
  ⟨c.sandbox.memoryLimit.atMostZero, "sandbox.memory_limit_mb must be positive"⟩,
  ⟨c.sandbox.maxExecutionTime.atMostZero, "sandbox.max_execution_time_seconds must be positive"⟩,
  ⟨c.sandbox.controlTimeout.atMostZero, "sandbox.control_timeout_seconds must be positive"⟩,
  ⟨.ok !c.sandbox.defaultSessionKey.truth, "sandbox.default_session_key must not be empty"⟩,
  ⟨.ok (!c.sandbox.containerName.truth && !c.sandbox.image.truth),
    "Either sandbox.image or sandbox.container_name is required"⟩,
  ⟨hasSlash c.toolchain.sourceFilename, "toolchain.source_filename must be a bare file name"⟩,
  ⟨c.maxCodeSize.atMostZero, "max_code_size must be positive"⟩]

theorem validate_eq (c : Config) : validate c = runAll c.checks := by
  have hlast (k : Check) : (k.run >>= fun _ => Except.ok ()) = k.run := bind_pure_unit
  simp only [checks, runAll, hlast]
  unfold validate
  dsimp only
  cases hplane : namesControlPlane c.sandbox.controlPlane with
  | false =>
    rw [Check.run, controlPlaneCheck, hplane]
    rcases Docker.unsupported c.sandbox.controlPlane with m | message <;> rfl
  | true =>
    rw [controlPlaneCheck, hplane]
    rcases hasSlash c.toolchain.sourceFilename with m | (_ | _) <;>
      cases c.sandbox.defaultSessionKey.truth <;> cases c.sandbox.containerName.truth <;>
        cases c.sandbox.image.truth <;> rfl

theorem validate_eq_ok {c : Config} : validate c = .ok () ↔ ∀ k ∈ c.checks, k.question = .ok false := by
  rw [validate_eq, Check.runAll_eq_ok]

theorem checks_answered {c : Config} : Check.Answered c.checks ↔
    (∃ yes, (controlPlaneCheck c.sandbox.controlPlane).question = .ok yes) ∧
    (∃ yes, c.sandbox.memoryLimit.atMostZero = .ok yes) ∧
    (∃ yes, c.sandbox.maxExecutionTime.atMostZero = .ok yes) ∧
    (∃ yes, c.sandbox.controlTimeout.atMostZero = .ok yes) ∧
    (∃ yes, hasSlash c.toolchain.sourceFilename = .ok yes) ∧
    ∃ yes, c.maxCodeSize.atMostZero = .ok yes := by
  simp only [Check.Answered, checks, List.forall_mem_cons, List.not_mem_nil, false_imp_iff, implies_true,
    Except.ok.injEq, exists_eq', true_and, and_true]

theorem controlPlaneCheck_text (s : String) :
    ∃ yes, (controlPlaneCheck (.text s)).question = .ok yes := by
  unfold controlPlaneCheck
  dsimp only
  split
  · exact ⟨false, rfl⟩
  · exact ⟨true, rfl⟩

theorem validate_eq_ok_of_toOption {c : Config} (h : (validate c).toOption = some ()) : validate c = .ok () := by
  cases hv : validate c with
  | error f =>
    rw [hv] at h
    cases h
  | ok _ => rfl

theorem validate_default : validate {} = .ok () := validate_eq_ok_of_toOption (by decide +kernel)

section

variable {α : Type} {r : Except Misuse α}

theorem used_ok {a : α} (h : r = .ok a) (log : List Record) : (Act.used r : Noted α) log = (.ok a, log) := by
  rw [h]
  rfl

theorem used_error {m : Misuse} (h : r = .error m) (log : List Record) :
    (Act.used r : Noted α) log = (.error m.failure, log) := by
  rw [h]
  rfl

end

structure Ends {α : Type} (r : Except Fault α) (D : α → Prop) (E : Kind → Prop) : Prop where
  ok (a : α) : r = .ok a ↔ D a
  foreign (kind : Kind) : r = .error (.other kind none) ↔ E kind
  told : Fails Told r

namespace Ends

variable {α β : Type} {r : Except Fault α} {D D' : α → Prop} {E E' : Kind → Prop}

theorem congr (h : Ends r D E) (hD : ∀ a, D a ↔ D' a) (hE : ∀ kind, E kind ↔ E' kind) : Ends r D' E' :=
  ⟨fun a => (h.ok a).trans (hD a), fun kind => (h.foreign kind).trans (hE kind), h.told⟩

theorem itself (h : Ends r D E) : Ends r (fun a => r = .ok a) E := ⟨fun _ => Iff.rfl, h.foreign, h.told⟩

theorem pure (a : α) : Ends (.ok a) (fun b => a = b) fun _ => False :=
  ⟨fun b => by rw [Except.ok.injEq], fun _ => ⟨nofun, nofun⟩, .ok a⟩

theorem reported (message : String) :
    Ends (.error (.configuration message) : Except Fault α) (fun _ => False) fun _ => False :=
  ⟨fun _ => ⟨nofun, nofun⟩, fun _ => ⟨nofun, nofun⟩, .error (.inl ⟨message, rfl⟩)⟩

theorem other (kind : Kind) :
    Ends (.error (.other kind none) : Except Fault α) (fun _ => False) fun k => kind = k :=
  ⟨fun _ => ⟨nofun, nofun⟩, fun k => by simp, .error (.inr ⟨kind, rfl⟩)⟩

theorem bind {σ : Type} {x : Act σ Fault α} {f : α → Act σ Fault β} {s : σ} {D₂ : α → β → Prop}
    {E₂ : α → Kind → Prop} (hx : Ends (x s).1 D E) (hf : ∀ a t, D a → Ends (f a t).1 (D₂ a) (E₂ a)) :
    Ends ((x >>= f) s).1 (fun b => ∃ a, D a ∧ D₂ a b) fun kind => E kind ∨ ∃ a, D a ∧ E₂ a kind := by
  rcases h : x s with ⟨e | a, t⟩ <;> rw [h] at hx
  · have hD (a : α) : ¬ D a := fun ha => nomatch (hx.ok a).mpr ha
    rw [Act.bind_error h]
    constructor
    · exact fun b => ⟨nofun, fun ⟨a, ha, _⟩ => absurd ha (hD a)⟩
    · intro kind
      rw [← hx.foreign kind]
      simp [hD]
    · exact fun e' he => hx.told e' (by cases he; rfl)
  · have hD (b : α) : D b ↔ b = a := by rw [← hx.ok, Except.ok.injEq, eq_comm]
    have hE (kind : Kind) : ¬ E kind := fun hk => nomatch (hx.foreign kind).mpr hk
    rw [Act.bind_ok h]
    refine (hf a t ((hD a).mpr rfl)).congr (fun b => ?_) fun kind => ?_
    · simp [hD]
    · simp [hD, hE]

theorem validate (c : Config) :
    Ends (validate c) (fun _ => validate c = .ok ()) (Check.Stuck c.checks) := by
  refine ⟨fun _ => Iff.rfl, fun kind => ?_, ?_⟩ <;> rw [validate_eq]
  · exact ⟨Check.stuck_of_runAll, Check.runAll_of_stuck⟩
  · exact Check.runAll_told _

end Ends

end Playpen.Config
