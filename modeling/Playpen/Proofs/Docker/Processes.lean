import Playpen.Proofs.Docker.Entries
import Playpen.Proofs.Engine.Failures

namespace Playpen.Docker

open Act (Does)
open Utf8 (Bytes)

variable {ω τ α β : Type}

def Escapes (out : Except (Failure τ) α) : Prop := ∃ f, out = .error f ∧ f.isA .playground = false

theorem not_escapes_ok (a : α) : ¬Escapes (.ok a : Except (Failure τ) α) := by
  rintro ⟨f, hf, -⟩
  cases hf

theorem escapes_error_iff {f : Failure τ} : Escapes (.error f : Except (Failure τ) α) ↔ f.isA .playground = false := by
  constructor
  · rintro ⟨_, ⟨⟩, hf⟩
    exact hf
  · exact fun hf => ⟨f, rfl, hf⟩

theorem escapes_map (g : α → β) {out : Except (Failure τ) α} : Escapes (out.map g) ↔ Escapes out := by
  cases out with
  | ok a => exact iff_of_false (not_escapes_ok _) (not_escapes_ok _)
  | error f => exact escapes_error_iff.trans escapes_error_iff.symm

def inUse (output : Bytes) : String := String.ofList ((Utf8.lossy output).toList.takeWhile (· ≠ '/'))

def Unreadable : Errand τ → Option Bytes → Prop
  | .create _, none | .isRunning _, none | .memoryUsage _, none => True
  | .memoryUsage _, some output => ∃ e, Size.bytes (inUse output) = .error e
  | _, _ => False

/-- The endings of the process for an errand of which a failure comes that is none of the sandbox. A process that
cannot be launched for want of the binary is accounted for, and for a command whatever the system fails with. -/
def Slips (errand : Errand τ) : Ending τ → Prop
  | .failed cause => cause.isA .fileMissing = false ∧ cause.isA .playground = false ∧
    ∀ id command, errand = .exec id command → cause.isA .system = false
  | .timedOut => False
  | .exited status output _ => status = 0 ∧ Unreadable errand output

namespace Cli

inductive Goes (c : Cli τ) (errand : Errand τ) (env : Env (Rack (Noted ω τ) τ) τ) (r : Except (Failure τ) α) :
    List (Contact τ) → Env (Rack (Noted ω τ) τ) τ → Prop
  | unwritten {spec m} (herrand : errand = .create spec) (hwords : c.runArgs spec = .error m)
    (hr : r = .error m.failure) : Goes c errand env r [] env
  | launched {l ending entries env'} (hreports : Reports env entries env')
    (hentries : entries.map mark = marks errand [.launch l ending]) (hr : Escapes r ↔ Slips errand ending) :
    Goes c errand env r [.launch l ending] env'

theorem Goes.map {c : Cli τ} {errand : Errand τ} {env env' : Env (Rack (Noted ω τ) τ) τ} {r : Except (Failure τ) α}
    {added : List (Contact τ)} (f : α → β) (h : Goes c errand env r added env') :
    Goes c errand env (r.map f) added env' := by
  cases h with
  | unwritten herrand hwords hr => exact .unwritten herrand hwords (by rw [hr]; rfl)
  | launched hreports hentries hr => exact .launched hreports hentries ((escapes_map f).trans hr)

theorem does_reply {c : Cli τ} {errand : Errand τ} {env : Env (Rack (Noted ω τ) τ) τ}
    {x : Effect (Rack (Noted ω τ) τ) τ α} (f : α → β) (h : Does x env (Goes c errand env)) :
    Does (x >>= fun a => pure (f a)) env (Goes c errand env) :=
  .bind h (fun _ added _ h => .pure ((List.append_nil added).symm ▸ h.map f)) fun _ _ _ h => h.map f

def asked (operation : String) (id : Option EnvironmentId) (allowed : List Int) : Ending τ → List Entry
  | .failed _ => []
  | .timedOut => [⟨operation, id, some "timeout"⟩]
  | .exited status output error =>
    [⟨operation, id, if allowed.contains status then none else some (exitDetail status output error)⟩]

inductive Answers (c : Cli τ) (allowed : List Int) : Ending τ → Except (Failure τ) (Option Bytes) → Prop
  | failed (cause : Failure τ) : Answers c allowed (.failed cause)
      (.error (if cause.isA .fileMissing then c.missing else cause))
  | timedOut (message : String) (id : Option EnvironmentId) : Answers c allowed .timedOut
      (.error (.controlPlane message id))
  | refused {status : Int} (output error : Option Bytes) (message : String) (id : Option EnvironmentId)
    (h : status ∉ allowed) : Answers c allowed (.exited status output error) (.error (.controlPlane message id))
  | exited {status : Int} (output error : Option Bytes) (h : status ∈ allowed) :
    Answers c allowed (.exited status output error) (.ok output)

section

variable [Seconds τ] [Clock ω τ] {shell : Shell ω τ} {env : Env (Rack (Noted ω τ) τ) τ} {errand : Errand τ}
  {operation : String} {id : Option EnvironmentId} {allowed : List Int}

theorem does_ask (c : Cli τ) (args : List Value) (operation : String) (hid : ∀ i, id = some i → i.IsText)
    (input : Option Bytes) (allowed : List Int) :
    Does (c.ask shell.noted.onRack args operation id input allowed) env fun r added env' =>
      ∃ ending, added = [.launch { words := args, timeout := c.limit, input } ending] ∧
        Reports env (asked operation id allowed ending) env' ∧ Answers c allowed ending r := by
  have htraceable : Env.Traceable id := by
    cases id with
    | none => exact ⟨_, rfl⟩
    | some i => exact traceable_of_isText (hid i rfl)
  refine .step (t := env) rfl rfl (.bind_of_ok (does_run shell _) ?_)
  rintro ending _ env₁ ⟨rfl, h₁⟩
  cases ending with
  | failed cause => exact .throw ⟨_, rfl, h₁, .failed cause⟩
  | timedOut =>
    refine .bind_silent (does_trace htraceable ..) ?_
    intro env₂ h₂
    exact .throw ⟨_, rfl, h₁.after h₂, .timedOut _ _⟩
  | exited status output error =>
    dsimp only
    split
    · rename_i hallowed
      refine .bind_silent (does_trace htraceable ..) ?_
      intro env₂ h₂
      refine .pure ⟨_, rfl, ?_, .exited _ _ (List.contains_iff_mem.mp hallowed)⟩
      rw [asked, if_pos hallowed]
      exact h₁.after h₂
    · rename_i hrefused
      refine .bind_silent (does_trace htraceable ..) ?_
      intro env₂ h₂
      refine .throw ⟨_, rfl, ?_, .refused _ _ _ _ fun h => hrefused (List.contains_iff_mem.mpr h)⟩
      rw [asked, if_neg hrefused]
      exact h₁.after h₂

structure Asks (errand : Errand τ) (operation : String) (allowed : List Int) : Prop where
  name : errand.name = operation
  allows : errand.allows = allowed.contains
  zero : 0 ∈ allowed
  quiet : ∀ id command, errand ≠ .exec id command

omit [Seconds τ] in
theorem Asks.marks (h : Asks errand operation allowed) (l : Launch τ) (ending : Ending τ) :
    (asked operation id allowed ending).map mark = marks errand [.launch l ending] := by
  cases ending with
  | failed cause =>
    cases errand with
    | exec id command => exact absurd rfl (h.quiet id command)
    | _ => rfl
  | timedOut => simp [asked, mark, Docker.marks, Contact.entered, Contact.completes, h.name]
  | exited status output error =>
    by_cases hs : status ∈ allowed <;>
      simp [asked, mark, Docker.marks, Contact.entered, Contact.completes, h.name, h.allows, hs]

variable {binary : String} {limit : τ}

omit [Seconds τ] in
theorem missing_text : (⟨.text binary, limit⟩ : Cli τ).missing.isA .playground = true := rfl

omit [Seconds τ] in
theorem Asks.escapes_iff (h : Asks errand operation allowed) {ending : Ending τ} {f : Failure τ}
    (ha : Answers ⟨.text binary, limit⟩ allowed ending (.error f)) :
    Escapes (.error f : Except (Failure τ) α) ↔ Slips errand ending := by
  rw [escapes_error_iff]
  cases ha with
  | failed cause =>
    have hexec : ∀ id command, errand = .exec id command → cause.isA .system = false :=
      fun id command he => absurd he (h.quiet id command)
    cases hm : cause.isA .fileMissing with
    | true => simp [Slips, hm, missing_text]
    | false => simpa [Slips, hm] using fun _ => hexec
  | timedOut => exact iff_of_false nofun id
  | refused output error message id hr =>
    refine iff_of_false nofun ?_
    rintro ⟨rfl, -⟩
    exact hr h.zero

theorem Asks.does (h : Asks errand operation allowed) {args : List Value} {input : Option Bytes}
    (hid : ∀ i, id = some i → i.IsText) {f : Option Bytes → Effect (Rack (Noted ω τ) τ) τ α}
    (hf : ∀ output error env', ∃ r, f output env' = (r, env') ∧
      ∀ status ∈ allowed, (Escapes r ↔ Slips errand (.exited status output error))) :
    Does ((⟨.text binary, limit⟩ : Cli τ).ask shell.noted.onRack args operation id input allowed >>= f) env
      (Goes ⟨.text binary, limit⟩ errand env) := by
  refine .bind (does_ask _ _ _ hid _ _) ?_ ?_
  · rintro output _ env₁ ⟨ending, rfl, h₁, ha⟩
    cases ha with
    | exited _ error hallowed =>
      obtain ⟨r, hr, hiff⟩ := hf output error env₁
      exact .of_eq hr rfl (.launched h₁ (h.marks _ _) (hiff _ hallowed))
  · rintro e _ env₁ ⟨ending, rfl, h₁, ha⟩
    exact .launched h₁ (h.marks _ _) (h.escapes_iff ha)

theorem does_create (spec : EnvironmentSpec) :
    Does ((⟨.text binary, limit⟩ : Cli τ).create shell.noted.onRack spec) env
      (Goes ⟨.text binary, limit⟩ (.create spec) env) := by
  cases hwords : (⟨.text binary, limit⟩ : Cli τ).runArgs spec with
  | error m =>
    have hstop : (Act.used ((⟨.text binary, limit⟩ : Cli τ).runArgs spec) : Effect (Rack (Noted ω τ) τ) τ _) env =
        (.error m.failure, env) := by rw [hwords]; rfl
    exact .stop hstop rfl (.unwritten rfl hwords rfl)
  | ok words =>
    have hgo : (Act.used ((⟨.text binary, limit⟩ : Cli τ).runArgs spec) : Effect (Rack (Noted ω τ) τ) τ _) env =
        (.ok words, env) := by rw [hwords]; rfl
    have hasks : Asks (.create spec : Errand τ) "create" [0] := ⟨rfl, rfl, List.mem_singleton_self 0, nofun⟩
    refine .step hgo rfl (hasks.does (by rintro i ⟨⟩) fun output error env' => ?_)
    cases output with
    | none => exact ⟨_, rfl, fun status hs => iff_of_true ⟨_, rfl, rfl⟩ ⟨List.mem_singleton.mp hs, trivial⟩⟩
    | some bytes =>
      by_cases hid : Text.trim (Utf8.lossy bytes) = ""
      · refine ⟨.error (.controlPlane "docker run returned no container id" none), ?_, fun _ _ => ?_⟩
        · refine (Act.bind_ok rfl).trans ?_
          exact congrFun (if_pos hid) env'
        · exact iff_of_false nofun (fun h => h.2)
      · refine ⟨.ok (.text (Text.trim (Utf8.lossy bytes))), ?_, fun _ _ => ?_⟩
        · refine (Act.bind_ok rfl).trans ?_
          exact congrFun (if_neg hid) env'
        · exact iff_of_false (not_escapes_ok _) (fun h => h.2)

theorem does_inject {id dest : Value} (hid : id.IsText) (hdest : dest.IsText) (archive : Bytes) :
    Does ((⟨.text binary, limit⟩ : Cli τ).inject shell.noted.onRack id dest archive) env
      (Goes ⟨.text binary, limit⟩ (.inject id dest archive) env) := by
  obtain ⟨place, rfl⟩ := hid
  obtain ⟨dest, rfl⟩ := hdest
  have hasks : Asks (.inject (.text place) (.text dest) archive : Errand τ) "inject" [0] :=
    ⟨rfl, rfl, List.mem_singleton_self 0, nofun⟩
  refine .step (t := env) rfl rfl (.step (t := env) rfl rfl (hasks.does ?_ fun output error env' => ?_))
  · rintro i ⟨⟩
    exact ⟨_, rfl⟩
  · exact ⟨_, rfl, fun _ _ => iff_of_false (not_escapes_ok _) fun h => h.2⟩

theorem does_terminate {id : EnvironmentId} (hid : id.IsText) (user : Value) :
    Does ((⟨.text binary, limit⟩ : Cli τ).terminate shell.noted.onRack id user) env
      (Goes ⟨.text binary, limit⟩ (.terminate id user) env) := by
  have hasks : Asks (.terminate id user : Errand τ) "terminate" [0, 1] := ⟨rfl, rfl, List.mem_cons_self, nofun⟩
  refine hasks.does ?_ fun output error env' => ?_
  · rintro i ⟨⟩
    exact hid
  · exact ⟨_, rfl, fun _ _ => iff_of_false (not_escapes_ok _) fun h => h.2⟩

theorem does_remove {id : EnvironmentId} (hid : id.IsText) :
    Does ((⟨.text binary, limit⟩ : Cli τ).remove shell.noted.onRack id) env
      (Goes ⟨.text binary, limit⟩ (.remove id) env) := by
  have hasks : Asks (.remove id : Errand τ) "remove" [0] := ⟨rfl, rfl, List.mem_singleton_self 0, nofun⟩
  refine hasks.does ?_ fun output error env' => ?_
  · rintro i ⟨⟩
    exact hid
  · exact ⟨_, rfl, fun _ _ => iff_of_false (not_escapes_ok _) fun h => h.2⟩

theorem does_memoryUsage {id : EnvironmentId} (hid : id.IsText) :
    Does ((⟨.text binary, limit⟩ : Cli τ).memoryUsage shell.noted.onRack id) env
      (Goes ⟨.text binary, limit⟩ (.memoryUsage id) env) := by
  have hasks : Asks (.memoryUsage id : Errand τ) "stats" [0] := ⟨rfl, rfl, List.mem_singleton_self 0, nofun⟩
  refine hasks.does ?_ fun output error env' => ?_
  · rintro i ⟨⟩
    exact hid
  · cases output with
    | none => exact ⟨_, rfl, fun status hs => iff_of_true ⟨_, rfl, rfl⟩ ⟨List.mem_singleton.mp hs, trivial⟩⟩
    | some bytes =>
      refine ⟨(Size.bytes (inUse bytes)).mapError Double.NotWhole.failure, rfl, fun status hs => ?_⟩
      cases hsize : Size.bytes (inUse bytes) with
      | ok used => exact iff_of_false (not_escapes_ok _) fun ⟨_, e, he⟩ => by rw [hsize] at he; cases he
      | error e =>
        refine iff_of_true ⟨_, rfl, ?_⟩ ⟨List.mem_singleton.mp hs, e, hsize⟩
        cases e <;> rfl

theorem does_isRunning {id : EnvironmentId} (hid : id.IsText) :
    Does ((⟨.text binary, limit⟩ : Cli τ).isRunning shell.noted.onRack id) env
      (Goes ⟨.text binary, limit⟩ (.isRunning id) env) := by
  have hasks : Asks (.isRunning id : Errand τ) "inspect" [0] := ⟨rfl, rfl, List.mem_singleton_self 0, nofun⟩
  have hid' : ∀ i, some id = some i → i.IsText := by
    rintro i ⟨⟩
    exact hid
  refine .bind_of_ok (does_ask _ _ _ hid' _ _).outcome ?_
  rintro r _ env₁ ⟨ending, rfl, h₁, ha⟩
  cases r with
  | ok output =>
    obtain ⟨r, hr, hiff⟩ : ∃ r, (fun env' => (r, env')) = (do
        let text ← Act.lift (decoded output)
        pure (Text.lower (Text.trim text) == "true") : Effect (Rack (Noted ω τ) τ) τ Bool) ∧
        (Escapes r ↔ Slips (.isRunning id) ending) := by
      cases ha with
      | exited _ error hs =>
        cases output with
        | none => exact ⟨_, rfl, iff_of_true ⟨_, rfl, rfl⟩ ⟨List.mem_singleton.mp hs, trivial⟩⟩
        | some bytes => exact ⟨_, rfl, iff_of_false (not_escapes_ok _) fun h => h.2⟩
    exact .of_eq (congrFun hr.symm env₁) rfl (.launched h₁ (hasks.marks _ _) hiff)
  | error e =>
    dsimp only
    split
    · rename_i hcontrol
      have hkept : ¬Escapes (.error e : Except (Failure τ) Bool) := by
        rw [escapes_error_iff, Failure.isA_playground (.inl rfl) hcontrol]
        exact Bool.noConfusion
      refine .pure (.launched h₁ (hasks.marks _ _) (iff_of_false (not_escapes_ok _) ?_))
      exact (not_congr (hasks.escapes_iff ha)).mp hkept
    · exact .throw (.launched h₁ (hasks.marks _ _) (hasks.escapes_iff ha))

theorem does_exec {id : EnvironmentId} (hid : id.IsText) (command : Command τ) :
    Does ((⟨.text binary, limit⟩ : Cli τ).exec shell.noted.onRack id command) env
      (Goes ⟨.text binary, limit⟩ (.exec id command) env) := by
  have htraceable : Env.Traceable (some id) := traceable_of_isText hid
  refine .step (t := env) rfl rfl (.bind_of_ok (does_run shell _) ?_)
  rintro ending _ env₁ ⟨rfl, h₁⟩
  cases ending with
  | timedOut =>
    refine .bind_silent (does_trace htraceable ..) ?_
    intro env₂ h₂
    exact .throw (.launched (h₁.after h₂) rfl (iff_of_false nofun nofun))
  | failed cause =>
    dsimp only
    split
    · rename_i hmissing
      refine .throw (.launched h₁ ?_ ?_)
      · simp [marks, Contact.entered, hmissing]
      · exact iff_of_false nofun fun h => by rw [h.1] at hmissing; cases hmissing
    · split
      · rename_i hmissing hsystem
        refine .bind_silent (does_trace htraceable ..) ?_
        intro env₂ h₂
        refine .throw (.launched (h₁.after h₂) ?_ ?_)
        · simp [marks, mark, Contact.entered, Contact.completes, hmissing, hsystem, Errand.name]
        · exact iff_of_false nofun fun h => by rw [h.2.2 id command rfl] at hsystem; cases hsystem
      · rename_i hmissing hsystem
        refine .throw (.launched h₁ ?_ ?_)
        · simp [marks, Contact.entered, hsystem]
        · rw [escapes_error_iff]
          refine ⟨fun h => ⟨?_, h, fun _ _ _ => ?_⟩, fun h => h.2.1⟩
          · exact eq_false_of_ne_true hmissing
          · exact eq_false_of_ne_true hsystem
  | exited status output error =>
    refine .bind_silent (does_trace htraceable ..) ?_
    intro env₂ h₂
    exact .pure (.launched (h₁.after h₂) rfl (iff_of_false (not_escapes_ok _) fun h => h.2))

theorem does_carry {client : Client (Noted ω τ) τ} {l : Link}
    (hl : env.world.connections[l]? = some (.cli ⟨.text binary, limit⟩)) (herrand : errand.IsTextual) :
    Does ((plane shell.noted client).carry l errand) env (Goes ⟨.text binary, limit⟩ errand env) := by
  have hc := connection_apply hl
  cases errand with
  | create spec => exact does_reply _ (.step hc rfl (does_create spec))
  | inject id dest archive => exact does_reply _ (.step hc rfl (does_inject herrand.1 herrand.2 archive))
  | exec id command => exact does_reply _ (.step hc rfl (does_exec herrand command))
  | terminate id user => exact does_reply _ (.step hc rfl (does_terminate herrand user))
  | isRunning id => exact does_reply _ (.step hc rfl (does_isRunning herrand))
  | memoryUsage id => exact does_reply _ (.step hc rfl (does_reply Value.int (does_memoryUsage herrand)))
  | remove id => exact does_reply _ (.step hc rfl (does_remove herrand))

end

end Cli

section

variable [Seconds τ] [Clock ω τ]

/-- Except when the words for it cannot be written, one process is launched for an errand, and whether a failure
comes of it that is none of the sandbox depends on nothing but how that ends. -/
theorem errand_escapes_iff (shell : Shell ω τ) (client : Client (Noted ω τ) τ) {env : Env (Rack (Noted ω τ) τ) τ}
    {l : Link} {binary : String} {limit : τ} {errand : Errand τ}
    (hl : env.world.connections[l]? = some (.cli ⟨.text binary, limit⟩)) (herrand : errand.IsTextual) :
    Does ((plane shell.noted client).carry l errand) env fun out added _ =>
      (∃ spec m, errand = .create spec ∧ Cli.runArgs ⟨.text binary, limit⟩ spec = .error m ∧ added = [] ∧
        out = .error m.failure) ∨
      ∃ launch ending, added = [.launch launch ending] ∧ (Escapes out ↔ Slips errand ending) := by
  refine (Cli.does_carry hl herrand).mono fun out added env' h => ?_
  cases h with
  | unwritten hspec hwords hr => exact .inl ⟨_, _, hspec, hwords, rfl, hr⟩
  | launched hreports hentries hr => exact .inr ⟨_, _, rfl, hr⟩

end

theorem errand_escapes_forbidden :
    let cli : Cli Double := ⟨.text "docker", Double.ofInt 30⟩
    let env := Script.rack (.cli cli) [.failed (.other .permission (some "Permission denied"))] {}
    let removal : Errand Double := .remove (.text "abc")
    env.world.connections[0]? = some (.cli cli) ∧ removal.IsTextual ∧
      Does ((plane Script.shell.noted Script.client).carry 0 removal) env fun out added _ =>
        (∃ spec m, removal = .create spec ∧ cli.runArgs spec = .error m ∧ added = [] ∧ out = .error m.failure) ∨
        ∃ launch ending, added = [.launch launch ending] ∧ (Escapes out ↔ Slips removal ending) := by
  intro cli env removal
  have hl : env.world.connections[0]? = some (.cli cli) := rfl
  have hremoval : removal.IsTextual := ⟨_, rfl⟩
  exact ⟨hl, hremoval, errand_escapes_iff Script.shell Script.client hl hremoval⟩

theorem removal_escapes_forbidden :
    let cause : Failure Double := .other .permission (some "Permission denied")
    let env := Script.rack (.cli ⟨.text "docker", Double.ofInt 30⟩) [.failed cause] {}
    cause.isA .system = true ∧
      Escapes ((plane Script.shell.noted Script.client).carry 0 (.remove (.text "abc")) env).1 := by
  intro cause env
  exact ⟨rfl, cause, rfl, rfl⟩

end Playpen.Docker
