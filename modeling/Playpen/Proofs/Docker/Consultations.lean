import Playpen.Docker.Doctor
import Playpen.Proofs.Docker.Contacts
import Playpen.Proofs.Text.Utf8
/-!
What a diagnosis asks of the outside, each time with the answer: processes that are launched and calls of the client
library. A failure that gets out of a look at the daemon comes from a client that is not closed, from output that is no
text or from a process that is not launched at all.
-/
namespace Playpen.Docker

open Act (Does)
open Utf8 (Bytes)

variable {ω τ α : Type}

def holdsNull : Value → Bool
  | .text text => text.toList.contains '\x00'
  | _ => false

def Launch.IsPassable (l : Launch τ) : Prop := ∀ word ∈ l.words, holdsNull word = false

instance (l : Launch τ) : Decidable l.IsPassable := inferInstanceAs (Decidable (∀ word ∈ l.words, _))

/-- A host as processes are launched on it: a null character in a word is refused before anything is done. -/
def Shell.careful (shell : Shell ω τ) : Shell ω τ where
  launch l w := if l.IsPassable then shell.launch l w else (.failed (.other .value none), w)
  which := shell.which

inductive Consultation (τ : Type)
  | launch (l : Launch τ) (ending : Ending τ)
  | fromEnv (limit : Int) (reply : Except (Failure τ) Unit)
  | ping (reply : Except (Failure τ) Unit)
  | version (reply : Except (Failure τ) Value)
  | lookUp (id : EnvironmentId) (reply : Except (Failure τ) Value)
  | close (reply : Except (Failure τ) Unit)

namespace Consultation

def succeeds : Consultation τ → Bool
  | launch _ (.exited status _ _) => status = 0
  | fromEnv _ (.ok _) | ping (.ok _) | version (.ok _) | lookUp _ (.ok _) | close (.ok _) => true
  | _ => false

def IsRefusal (cause : Failure τ) : Prop := cause = .other .value none ∨ cause = .other .overflow none

/-- A process exits with both its streams captured, runs out of time or is not found, unless it is refused, as it is for
a null character. A call of the client library fails with a failure of the engine, and a version, if there is one, can
be shown. -/
def IsProper : Consultation τ → Prop
  | launch l (.exited _ output error) => l.IsPassable ∧ output.isSome ∧ error.isSome
  | launch l .timedOut => l.IsPassable
  | launch l (.failed cause) =>
    (l.IsPassable ∧ (cause.isA .fileMissing = true ∨ IsRefusal cause)) ∨ cause = .other .value none
  | version (.ok answer) => ∃ entries, answer = .map entries ∧
    ∀ v, Value.find? "Version" entries = some v → ∃ text, v.display = .ok text
  | fromEnv _ (.ok _) | ping (.ok _) | lookUp _ (.ok _) | close (.ok _) => True
  | fromEnv _ (.error e) | ping (.error e) | version (.error e) | lookUp _ (.error e) | close (.error e) =>
    e.isA .engine = true

def Garbled (stream : Option Bytes) : Prop := ∃ bs ∈ stream, ∀ text, Utf8.encode text ≠ bs

inductive Breaks : Consultation τ → Failure τ → Prop
  | unclosed (e : Failure τ) : Breaks (close (.error e)) e
  | undecodable {l : Launch τ} {output error : Option Bytes} (status : Int) (htext : l.text = true)
    (h : Garbled output ∨ Garbled error) : Breaks (launch l (.exited status output error)) (.other .decoding none)
  | refused (l : Launch τ) {cause : Failure τ} (h : IsRefusal cause) : Breaks (launch l (.failed cause)) cause

theorem Breaks.unique {c : Consultation τ} {f g : Failure τ} (hf : c.Breaks f) (hg : c.Breaks g) : f = g := by
  cases hf <;> cases hg <;> rfl

theorem IsRefusal.isA {cause : Failure τ} (h : IsRefusal cause) :
    cause.isA .fileMissing = false ∧ cause.isA .controlPlane = false ∧ cause.isA .playground = false := by
  obtain rfl | rfl := h <;> exact ⟨rfl, rfl, rfl⟩

end Consultation

open Consultation (IsRefusal Garbled Breaks)

def Broken (consultations : List (Consultation τ)) (f : Failure τ) : Prop := ∃ c ∈ consultations, c.Breaks f

def Launch.IsPlain (l : Launch τ) : Prop := l.merged = false ∧ ∀ word ∈ l.words, ∃ text, word = .text text

def Shell.Proper (shell : Shell ω τ) : Prop :=
  ∀ l w, l.IsPlain → (Consultation.launch l (shell.launch l w).1).IsProper

structure Client.Sincere (client : Client ω τ) : Prop where
  fromEnv : ∀ limit w, (Consultation.fromEnv limit (client.fromEnv limit w).1).IsProper
  ping : ∀ w, (Consultation.ping (client.ping w).1).IsProper
  version : ∀ w, (Consultation.version (client.version w).1).IsProper
  lookUp : ∀ id w, (Consultation.lookUp id (client.lookUp id w).1).IsProper
  close : ∀ w, (Consultation.close (client.close w).1).IsProper

structure Consulted (ω τ : Type) where
  world : ω
  consultations : List (Consultation τ) := []

instance [Clock ω τ] : Clock (Consulted ω τ) τ where
  now w := Clock.now w.world
  wall w := Clock.wall w.world

instance : Recording (Env (Rack (Consulted ω τ) τ) τ) (Consultation τ) where
  calls env := env.world.outer.consultations

def consulting (consultation : Except (Failure τ) α → Consultation τ) (x : Call ω τ α) : Call (Consulted ω τ) τ α :=
  fun w =>
    let (r, world) := x w.world
    (r, ⟨world, w.consultations ++ [consultation r]⟩)

def unconsulted (x : Call ω τ α) : Call (Consulted ω τ) τ α :=
  Act.within Consulted.world (fun world w => { w with world }) x

def Shell.consulted (shell : Shell ω τ) : Shell (Consulted ω τ) τ where
  launch l w :=
    let (ending, world) := shell.launch l w.world
    (ending, ⟨world, w.consultations ++ [.launch l ending]⟩)
  which binary w := shell.which binary w.world

def Client.consulted (client : Client ω τ) : Client (Consulted ω τ) τ where
  fromEnv limit := consulting (.fromEnv limit) (client.fromEnv limit)
  run arguments := unconsulted (client.run arguments)
  lookUp id := consulting (.lookUp id) (client.lookUp id)
  putArchive dest archive := unconsulted (client.putArchive dest archive)
  execCreate id command := unconsulted (client.execCreate id command)
  execStart execId := unconsulted (client.execStart execId)
  execInspect execId := unconsulted (client.execInspect execId)
  execRun words user := unconsulted (client.execRun words user)
  stats := unconsulted client.stats
  remove := unconsulted client.remove
  ping := consulting .ping client.ping
  version := consulting .version client.version
  close := consulting .close client.close

section

variable {shell : Shell ω τ} {client : Client ω τ} {env : Env (Rack (Consulted ω τ) τ) τ}

theorem does_consult {consultation : Except (Failure τ) α → Consultation τ} {x : Call ω τ α}
    (hx : ∀ w, (consultation (x w).1).IsProper) :
    Does (Env.call (Rack.outside (consulting consultation x))) env fun r added env' =>
      added = [consultation r] ∧ (consultation r).IsProper ∧ env'.world.connections = env.world.connections :=
  ⟨[consultation (x env.world.outer.world).1], rfl, rfl, hx _, rfl⟩

theorem does_launch (hshell : shell.Proper) {l : Launch τ} (hl : l.IsPlain) :
    Does (shell.consulted.onRack.run l) env fun r added env' =>
      ∃ ending, r = .ok ending ∧ added = [.launch l ending] ∧ (Consultation.launch l ending).IsProper ∧
        env'.world.connections = env.world.connections :=
  ⟨[.launch l (shell.launch l env.world.outer.world).1], rfl, _, rfl, rfl, hshell l _ hl, rfl⟩

theorem broken_singleton {c : Consultation τ} {e : Failure τ} (h : c.Breaks e) (f : Failure τ) :
    Broken [c] f ↔ f = e := by
  constructor
  · rintro ⟨_, hc, hf⟩
    cases List.mem_singleton.mp hc
    exact hf.unique h
  · rintro rfl
    exact ⟨c, List.mem_singleton_self c, h⟩

theorem broken_append {before after : List (Consultation τ)} {f : Failure τ} :
    Broken (before ++ after) f ↔ Broken before f ∨ Broken after f := by
  simp only [Broken, List.mem_append, or_and_right, exists_or]

theorem not_broken {consultations : List (Consultation τ)} (h : ∀ c ∈ consultations, ∀ f, ¬c.Breaks f) (f : Failure τ) :
    ¬Broken consultations f := fun ⟨c, hc, hf⟩ => h c hc f hf

theorem launch_failed {l : Launch τ} {cause : Failure τ} (h : (Consultation.launch l (.failed cause)).IsProper) :
    (cause.isA .fileMissing = true ∧ ∀ f, ¬(Consultation.launch l (.failed cause)).Breaks f) ∨ IsRefusal cause := by
  obtain ⟨-, hmissing | hrefused⟩ | hnull := h
  · refine .inl ⟨hmissing, ?_⟩
    rintro _ ⟨⟩
    rename_i hrefused
    cases hmissing.symm.trans hrefused.isA.1
  · exact .inr hrefused
  · exact .inr (.inl hnull)

theorem textOf_cases (stream : Option Bytes) :
    (Garbled stream ∧ (Cli.textOf stream : Except (Failure τ) _) = .error (.other .decoding none)) ∨
      (¬Garbled stream ∧ ∃ text, text.isSome = stream.isSome ∧
        (Cli.textOf stream : Except (Failure τ) _) = .ok text) := by
  cases stream with
  | none => exact .inr ⟨fun ⟨_, hbs, _⟩ => (by cases hbs), none, rfl, rfl⟩
  | some bs =>
    cases hdecode : Utf8.decode? bs with
    | none =>
      refine .inl ⟨⟨bs, rfl, Utf8.decode?_eq_none_iff.mp hdecode⟩, ?_⟩
      rw [Cli.textOf, Option.map_some, Tree.textOf?, hdecode]
      rfl
    | some text =>
      refine .inr ⟨?_, some (String.ofList (Text.unifyLineEnds text)), rfl, ?_⟩
      · rintro ⟨_, ⟨⟩, h⟩
        cases hdecode.symm.trans (Utf8.decode?_eq_none_iff.mpr h)
      · rw [Cli.textOf, Option.map_some, Tree.textOf?, hdecode]
        rfl

theorem not_breaks_exited {l : Launch τ} {status : Int} {output error : Option Bytes}
    (h : ¬(Garbled output ∨ Garbled error)) (f : Failure τ) :
    ¬(Consultation.launch l (.exited status output error)).Breaks f := by
  rintro ⟨⟩
  exact h ‹_›

theorem does_decode (output error : Option Bytes)
    (f : Option String → Option String → Effect (Rack (Consulted ω τ) τ) τ α)
    {P : Except (Failure τ) α → List (Consultation τ) → Env (Rack (Consulted ω τ) τ) τ → Prop}
    (hgarbled : Garbled output ∨ Garbled error → P (.error (.other .decoding none)) [] env)
    (hread : ¬(Garbled output ∨ Garbled error) → ∀ out err : Option String, out.isSome = output.isSome →
      err.isSome = error.isSome → Does (f out err) env P) :
    Does (do
      let out ← Act.lift (Cli.textOf output)
      let err ← Act.lift (Cli.textOf error)
      f out err) env P := by
  have hlift {text : Option String} {stream : Option Bytes}
      (h : (Cli.textOf stream : Except (Failure τ) _) = .ok text) :
      (Act.lift (Cli.textOf stream) : Effect (Rack (Consulted ω τ) τ) τ _) env = (.ok text, env) := by
    rw [h]
    rfl
  have hstop {stream : Option Bytes} (h : (Cli.textOf stream : Except (Failure τ) _) = .error (.other .decoding none)) :
      (Act.lift (Cli.textOf stream) : Effect (Rack (Consulted ω τ) τ) τ _) env =
        (.error (.other .decoding none), env) := by
    rw [h]
    rfl
  obtain ⟨hout, houtput⟩ | ⟨hout, out, hsome, houtput⟩ := textOf_cases (τ := τ) output
  · exact .stop (hstop houtput) rfl (hgarbled (.inl hout))
  obtain ⟨herr, herror⟩ | ⟨herr, err, hsome', herror⟩ := textOf_cases (τ := τ) error
  · exact .step (hlift houtput) rfl (.stop (hstop herror) rfl (hgarbled (.inr herr)))
  · exact .step (hlift houtput) rfl (.step (hlift herror) rfl (hread (not_or.mpr ⟨hout, herr⟩) out err hsome hsome'))

inductive Sounded (consultations : List (Consultation τ)) : Except (Failure τ) (Bool × String) → Prop
  | healthy (detail : String) (hsome : consultations ≠ []) (hall : ∀ c ∈ consultations, c.succeeds = true)
    (hsound : ∀ f, ¬Broken consultations f) : Sounded consultations (.ok (true, detail))
  | unhealthy (detail : String) (hfail : consultations = [] ∨ ∃ c ∈ consultations, c.succeeds = false)
    (hsound : ∀ f, ¬Broken consultations f) : Sounded consultations (.ok (false, detail))
  | broken {e : Failure τ} (h : ∀ f, Broken consultations f ↔ f = e) : Sounded consultations (.error e)

theorem not_mem_tail_launch {l : Launch τ} {ending : Ending τ} (limit : Int) (r : Except (Failure τ) Unit) :
    Consultation.fromEnv limit r ∉ [.launch l ending].tail := List.not_mem_nil

theorem not_broken_singleton {c : Consultation τ} (h : ∀ f, ¬c.Breaks f) : ∀ f, ¬Broken [c] f :=
  not_broken (List.forall_mem_singleton.mpr h)

theorem Sounded.launch {l : Launch τ} {ending : Ending τ} (detail : String)
    (h : (Consultation.launch l ending).succeeds = false) (hsound : ∀ f, ¬(Consultation.launch l ending).Breaks f) :
    Sounded [.launch l ending] (.ok (false, detail)) :=
  .unhealthy detail (.inr ⟨_, List.mem_singleton_self _, h⟩) (not_broken_singleton hsound)

theorem plain_texts (words : List String) : ∀ word ∈ Cli.texts words, ∃ text, word = .text text :=
  List.forall_mem_map.mpr fun text _ => ⟨text, rfl⟩

theorem does_checkHealth_cli (hshell : shell.Proper) (binary : String) (limit : τ) :
    Does (Cli.checkHealth shell.consulted.onRack (.text binary) limit) env fun r added env' =>
      Sounded added r ∧ (∀ limit r, .fromEnv limit r ∉ added.tail) ∧
        env'.world.connections = env.world.connections := by
  refine .step (t := env) rfl rfl ?_
  dsimp only
  cases shell.consulted.onRack.which (.text binary) env.world with
  | false =>
    exact .pure ⟨.unhealthy _ (.inl rfl) (not_broken (List.forall_mem_nil _)), fun _ _ => List.not_mem_nil, rfl⟩
  | true =>
    rw [Bool.not_true, if_neg Bool.false_ne_true]
    refine .bind_of_ok (does_launch hshell ⟨rfl, List.forall_mem_cons.mpr ⟨⟨_, rfl⟩, plain_texts _⟩⟩) ?_
    rintro ending _ env₁ ⟨rfl, hproper, hconnections⟩
    cases ending with
    | failed cause =>
      dsimp only
      obtain ⟨hmissing, hsound⟩ | hrefused := launch_failed hproper
      · rw [if_pos hmissing]
        exact .pure ⟨.launch _ rfl hsound, not_mem_tail_launch, hconnections⟩
      · rw [if_neg (Bool.eq_false_iff.mp hrefused.isA.1)]
        exact .throw ⟨.broken (broken_singleton (.refused _ hrefused)), not_mem_tail_launch, hconnections⟩
    | timedOut => exact .pure ⟨.launch _ rfl nofun, not_mem_tail_launch, hconnections⟩
    | exited status output error =>
      obtain ⟨-, houtput, herror⟩ := hproper
      refine does_decode output error _ ?_ ?_
      · intro hgarbled
        exact ⟨.broken (broken_singleton (.undecodable status rfl hgarbled)), not_mem_tail_launch, hconnections⟩
      · intro hread out err hout herr
        obtain ⟨out, rfl⟩ := Option.isSome_iff_exists.mp (hout.trans houtput)
        obtain ⟨err, rfl⟩ := Option.isSome_iff_exists.mp (herr.trans herror)
        by_cases hstatus : status = 0
        · rw [if_neg (not_not_intro hstatus)]
          refine .of_eq rfl rfl ⟨.healthy _ (List.cons_ne_nil _ _) ?_ (not_broken_singleton (not_breaks_exited hread)),
            not_mem_tail_launch, hconnections⟩
          exact List.forall_mem_singleton.mpr (decide_eq_true hstatus)
        · rw [if_pos hstatus]
          have hdetail : ∃ detail, (Cli.present (if (some err).getD "" = "" then some out else some err) :
              Except (Failure τ) String) = .ok detail := by
            split <;> exact ⟨_, rfl⟩
          obtain ⟨detail, hdetail⟩ := hdetail
          rw [hdetail]
          exact .of_eq rfl rfl ⟨.launch _ (decide_eq_false hstatus) (not_breaks_exited hread), not_mem_tail_launch,
            hconnections⟩

theorem does_imageAvailable (hshell : shell.Proper) (image binary : String) (limit : τ) :
    Does (Cli.imageAvailable shell.consulted.onRack (.text image) (.text binary) limit) env fun out added _ =>
      (∃ l ending, added = [.launch l ending]) ∧ ∀ f, out = .error f ↔ Broken added f := by
  refine .bind_of_ok (does_launch hshell ⟨rfl, plain_texts [binary, "image", "inspect", image]⟩) ?_
  rintro ending _ env₁ ⟨rfl, hproper, -⟩
  have hquiet {c : Consultation τ} {b : Bool} (hsound : ∀ f, ¬c.Breaks f) (f : Failure τ) :
      (.ok b : Except (Failure τ) Bool) = .error f ↔ Broken [c] f :=
    iff_of_false nofun (not_broken_singleton hsound f)
  have hloud {c : Consultation τ} {e : Failure τ} (hbreaks : c.Breaks e) (f : Failure τ) :
      (.error e : Except (Failure τ) Bool) = .error f ↔ Broken [c] f := by
    rw [broken_singleton hbreaks, Except.error.injEq, eq_comm]
  cases ending with
  | failed cause =>
    dsimp only
    obtain ⟨hmissing, hsound⟩ | hrefused := launch_failed hproper
    · rw [if_pos hmissing]
      exact .pure ⟨⟨_, _, rfl⟩, hquiet hsound⟩
    · rw [if_neg (Bool.eq_false_iff.mp hrefused.isA.1)]
      exact .throw ⟨⟨_, _, rfl⟩, hloud (.refused _ hrefused)⟩
  | timedOut => exact .pure ⟨⟨_, _, rfl⟩, hquiet nofun⟩
  | exited status output error =>
    refine does_decode output error _ ?_ ?_
    · exact fun hgarbled => ⟨⟨_, _, rfl⟩, hloud (.undecodable status rfl hgarbled)⟩
    · exact fun hread _ _ _ _ => .pure ⟨⟨_, _, rfl⟩, hquiet (not_breaks_exited hread)⟩

def Asking (c : Consultation τ) : Prop := (∃ r, c = .ping r) ∨ ∃ r, c = .version r

theorem does_asked (hclient : client.Sincere) :
    Does (do
      Env.call client.consulted.onRack.ping
      let answer ← Env.call client.consulted.onRack.version
      let version ← Act.lift (Api.member? "Version" answer)
      pure (version.getD (.text "unknown"))) env fun r added env' =>
      (∀ c ∈ added, Asking c) ∧ env'.world.connections = env.world.connections ∧
        ((∃ v text, r = .ok v ∧ v.display = .ok text ∧ ∀ c ∈ added, c.succeeds = true) ∨
          ∃ e, r = .error e ∧ e.isA .engine = true ∧ ∃ c ∈ added, c.succeeds = false) := by
  refine .bind (does_consult hclient.ping) ?_ ?_
  · rintro _ _ env₁ ⟨rfl, -, h₁⟩
    refine .bind (does_consult hclient.version) ?_ ?_
    · rintro answer _ env₂ ⟨rfl, ⟨entries, rfl, hversion⟩, h₂⟩
      have hshown : ∃ text, ((Value.find? "Version" entries).getD (.text "unknown")).display = .ok text := by
        cases hfind : Value.find? "Version" entries with
        | none => exact ⟨_, rfl⟩
        | some v => exact hversion v hfind
      obtain ⟨text, htext⟩ := hshown
      refine .of_eq rfl rfl ⟨?_, h₂.trans h₁, .inl ⟨_, text, rfl, htext, ?_⟩⟩
      · simp [Asking]
      · simp [Consultation.succeeds]
    · rintro e _ env₂ ⟨rfl, he, h₂⟩
      refine ⟨?_, h₂.trans h₁, .inr ⟨e, rfl, he, _, List.mem_cons_of_mem _ List.mem_cons_self, rfl⟩⟩
      simp [Asking]
  · rintro e _ env₁ ⟨rfl, he, h₁⟩
    refine ⟨?_, h₁, .inr ⟨e, rfl, he, _, List.mem_singleton_self _, rfl⟩⟩
    simp [Asking]

inductive Heard (consultations : List (Consultation τ)) : Except (Failure τ) (Except (Failure τ) Value) → Prop
  | told {v : Value} {text : String} (hv : v.display = .ok text) (hall : ∀ c ∈ consultations, c.succeeds = true)
    (hsound : ∀ f, ¬Broken consultations f) : Heard consultations (.ok (.ok v))
  | failed {e : Failure τ} (he : e.isA .engine = true) (hfail : ∃ c ∈ consultations, c.succeeds = false)
    (hsound : ∀ f, ¬Broken consultations f) : Heard consultations (.ok (.error e))
  | broken {e : Failure τ} (h : ∀ f, Broken consultations f ↔ f = e) : Heard consultations (.error e)

theorem Asking.not_breaks {c : Consultation τ} (h : Asking c) (f : Failure τ) : ¬c.Breaks f := by
  obtain ⟨_, rfl⟩ | ⟨_, rfl⟩ := h <;> exact nofun

theorem broken_close {asked : List (Consultation τ)} (h : ∀ c ∈ asked, ∀ f, ¬c.Breaks f)
    (reply : Except (Failure τ) Unit) (f : Failure τ) : Broken (asked ++ [.close reply]) f ↔ reply = .error f := by
  rw [broken_append, or_iff_right (not_broken h f)]
  constructor
  · rintro ⟨_, hc, hf⟩
    cases List.mem_singleton.mp hc
    cases hf
    rfl
  · rintro rfl
    exact ⟨_, List.mem_singleton_self _, .unclosed f⟩

theorem does_closed (hclient : client.Sincere) {x : Effect (Rack (Consulted ω τ) τ) τ Value}
    (hx : Does x env fun r added env' =>
      (∀ c ∈ added, Asking c) ∧ env'.world.connections = env.world.connections ∧
        ((∃ v text, r = .ok v ∧ v.display = .ok text ∧ ∀ c ∈ added, c.succeeds = true) ∨
          ∃ e, r = .error e ∧ e.isA .engine = true ∧ ∃ c ∈ added, c.succeeds = false)) :
    Does (x.outcome.ensure (Env.call client.consulted.onRack.close)) env fun r added env' =>
      Heard added r ∧ (∀ limit r, .fromEnv limit r ∉ added) ∧ env'.world.connections = env.world.connections := by
  refine .ensure hx.outcome ?_
  rintro _ asked env₁ ⟨r, rfl, hasking, h₁, hr⟩
  have hopen (limit : Int) (r reply : Except (Failure τ) Unit) : .fromEnv limit r ∉ asked ++ [.close reply] := by
    intro h
    obtain h | h := List.mem_append.mp h
    · obtain ⟨_, h⟩ | ⟨_, h⟩ := hasking _ h <;> cases h
    · cases List.mem_singleton.mp h
  have hclose := broken_close fun c hc => (hasking c hc).not_breaks
  refine (does_consult hclient.close).mono ?_
  rintro reply _ env₂ ⟨rfl, hproper, h₂⟩
  refine ⟨?_, fun limit r => hopen limit r reply, h₂.trans h₁⟩
  -- A failure of closing takes the place of whatever was heard.
  cases reply with
  | error e => exact .broken fun f => by rw [hclose, Except.error.injEq, eq_comm]
  | ok _ =>
    have hsound : ∀ f, ¬Broken (asked ++ [.close (.ok ())]) f := fun f h => by cases (hclose _ f).mp h
    obtain ⟨v, text, rfl, hv, hall⟩ | ⟨e, rfl, he, c, hc, hfail⟩ := hr
    · exact .told hv (List.forall_mem_append.mpr ⟨hall, List.forall_mem_singleton.mpr rfl⟩) hsound
    · exact .failed he ⟨c, List.mem_append_left _ hc, hfail⟩ hsound

theorem fromEnv_not_breaks {limit : Int} {reply : Except (Failure τ) Unit} (f : Failure τ) :
    ¬(Consultation.fromEnv limit reply).Breaks f := by
  rintro ⟨⟩

theorem broken_fromEnv {consultations : List (Consultation τ)} {limit : Int} {reply : Except (Failure τ) Unit}
    {f : Failure τ} : Broken ([.fromEnv limit reply] ++ consultations) f ↔ Broken consultations f := by
  rw [broken_append]
  exact or_iff_right (not_broken_singleton fromEnv_not_breaks f)

variable [Seconds τ]

theorem does_checkHealth_api (hclient : client.Sincere) :
    Does (Api.checkHealth client.consulted.onRack) env fun r added env' =>
      Sounded added r ∧ (∀ limit r, .fromEnv limit r ∉ added.tail) ∧
        env'.world.connections = env.world.connections := by
  refine .bind_of_ok (Does.outcome (does_consult (hclient.fromEnv 3))) ?_
  rintro (e | _) _ env₁ ⟨rfl, he, h₁⟩
  · have hengine : e.isA .engine = true := he
    dsimp only
    rw [if_pos hengine]
    refine .pure ⟨.unhealthy _ (.inr ⟨_, List.mem_singleton_self _, rfl⟩) ?_, fun _ _ => List.not_mem_nil, h₁⟩
    exact not_broken_singleton fromEnv_not_breaks
  · refine .bind (does_closed hclient (does_asked hclient)) ?_ ?_
    · rintro heard asked env₂ ⟨hheard, hopen, h₂⟩
      cases hheard with
      | told hv hall hsound =>
        dsimp only
        rw [hv]
        refine .of_eq rfl rfl ⟨.healthy _ (List.cons_ne_nil _ _) ?_ fun f => ?_, ?_, h₂.trans h₁⟩
        · rw [List.append_nil]
          exact List.forall_mem_cons.mpr ⟨rfl, hall⟩
        · rw [List.append_nil]
          exact mt broken_fromEnv.mp (hsound f)
        · rwa [List.append_nil]
      | failed he hfail hsound =>
        obtain ⟨c, hc, hfail⟩ := hfail
        dsimp only
        rw [if_pos he]
        refine .pure ⟨.unhealthy _ (.inr ⟨c, ?_, hfail⟩) fun f => ?_, ?_, h₂.trans h₁⟩
        · rw [List.append_nil]
          exact List.mem_cons_of_mem _ hc
        · rw [List.append_nil]
          exact mt broken_fromEnv.mp (hsound f)
        · rwa [List.append_nil]
    · rintro e asked env₂ ⟨hheard, hopen, h₂⟩
      cases hheard with
      | broken h => exact ⟨.broken fun f => broken_fromEnv.trans (h f), hopen, h₂.trans h₁⟩

def Orderly (c : Consultation τ) : Prop := (∀ i e, c ≠ .fromEnv i (.error e)) ∧ ∀ f, ¬c.Breaks f

variable [Clock ω τ]

theorem does_traceSince_consulted (operation : String) {id : EnvironmentId} (hid : Env.Traceable (some id)) (start : τ)
    (error : Option String) :
    Does (Env.traceSince operation (some id) start error) env fun r added env' =>
      r = .ok () ∧ added = [] ∧ env'.world.connections = env.world.connections := by
  obtain ⟨hok, hworld, -, -⟩ := Env.traceCall_quiet hid operation (Seconds.sub (Clock.now env.world) start) error env
  refine ⟨[], ?_, hok, rfl, congrArg (·.connections) hworld⟩
  rw [List.append_nil]
  exact congrArg (·.outer.consultations) hworld

inductive Viewed (α : Type) : Except (Failure τ) α → List (Consultation τ) → Prop
  | told (a : α) {c : Consultation τ} (hc : Orderly c) : Viewed α (.ok a) [c]
  | excused {f : Failure τ} {c : Consultation τ} (hf : f.isA .playground = true) (hc : Orderly c) :
    Viewed α (.error f) [c]
  | refused {f : Failure τ} (l : Launch τ) (hf : IsRefusal f) : Viewed α (.error f) [.launch l (.failed f)]

theorem does_ask_consulted (hshell : shell.Proper) {binary : String} {limit : τ} {args : List Value}
    (hargs : ∀ word ∈ args, ∃ text, word = .text text) (operation : String) {id : EnvironmentId}
    (hid : Env.Traceable (some id)) (allowed : List Int) :
    Does ((⟨.text binary, limit⟩ : Cli τ).ask shell.consulted.onRack args operation (some id) none allowed) env
      fun r added env' => Viewed (Option Bytes) r added ∧ env'.world.connections = env.world.connections ∧
        ∀ output, r = .ok output → output.isSome = true := by
  refine .step (t := env) rfl rfl (.bind_of_ok (does_launch hshell ⟨rfl, hargs⟩) ?_)
  rintro ending _ env₁ ⟨rfl, hproper, h₁⟩
  have horderly {l : Launch τ} {ending : Ending τ} (h : ∀ f, ¬(Consultation.launch l ending).Breaks f) :
      Orderly (.launch l ending) := ⟨fun _ _ => nofun, h⟩
  cases ending with
  | failed cause =>
    dsimp only
    obtain ⟨hmissing, hsound⟩ | hrefused := launch_failed hproper
    · rw [if_pos hmissing]
      exact .throw ⟨.excused rfl (horderly hsound), h₁, fun _ => nofun⟩
    · rw [if_neg (Bool.eq_false_iff.mp hrefused.isA.1)]
      exact .throw ⟨.refused _ hrefused, h₁, fun _ => nofun⟩
  | timedOut =>
    refine .bind_silent (does_traceSince_consulted _ hid _ _) ?_
    intro env₂ h₂
    exact .throw ⟨.excused rfl (horderly fun _ => nofun), h₂.trans h₁, fun _ => nofun⟩
  | exited status output error =>
    have hsound : Orderly (.launch { words := args, timeout := limit } (.exited status output error)) := by
      refine horderly ?_
      rintro _ (- | ⟨_, htext, -⟩)
      cases htext
    dsimp only
    split
    · refine .bind_silent (does_traceSince_consulted _ hid _ _) ?_
      intro env₂ h₂
      refine .pure ⟨.told output hsound, h₂.trans h₁, ?_⟩
      rintro _ ⟨⟩
      exact hproper.2.1
    · refine .bind_silent (does_traceSince_consulted _ hid _ _) ?_
      intro env₂ h₂
      exact .throw ⟨.excused rfl hsound, h₂.trans h₁, fun _ => nofun⟩

theorem does_isRunning_cli (hshell : shell.Proper) (binary : String) (limit : τ) (container : String) :
    Does ((⟨.text binary, limit⟩ : Cli τ).isRunning shell.consulted.onRack (.text container)) env fun r added env' =>
      Viewed Bool r added ∧ env'.world.connections = env.world.connections := by
  have hwords := plain_texts [binary, "inspect", "--format", "\x7b\x7b.State.Running\x7d\x7d", container]
  refine .bind_of_ok (does_ask_consulted hshell hwords _ (traceable_of_isText ⟨_, rfl⟩) _).outcome ?_
  rintro r looks env₁ ⟨hviewed, h₁, houtput⟩
  cases hviewed with
  | told output hc =>
    obtain ⟨output, rfl⟩ := Option.isSome_iff_exists.mp (houtput output rfl)
    exact .of_eq rfl rfl ⟨by exact .told _ hc, h₁⟩
  | excused hf hc =>
    dsimp only
    split
    · exact .pure ⟨.told _ hc, h₁⟩
    · exact .throw ⟨.excused hf hc, h₁⟩
  | refused l hf =>
    dsimp only
    rw [if_neg (Bool.eq_false_iff.mp hf.isA.2.1)]
    exact .throw ⟨.refused l hf, h₁⟩

omit [Clock ω τ] in
theorem does_isRunning_api (hclient : client.Sincere) (id : EnvironmentId) :
    Does (Api.isRunning client.consulted.onRack id) env fun r added env' =>
      Viewed Bool r added ∧ env'.world.connections = env.world.connections ∧ ∀ l ending, .launch l ending ∉ added := by
  have hunlaunched {r : Except (Failure τ) Value} (l : Launch τ) (ending : Ending τ) :
      .launch l ending ∉ [Consultation.lookUp id r] := fun h => by cases List.mem_singleton.mp h
  have horderly (r : Except (Failure τ) Value) : Orderly (.lookUp id r) := ⟨fun _ _ => nofun, fun _ => nofun⟩
  refine .bind_of_ok (Does.outcome (does_consult (hclient.lookUp id))) ?_
  rintro (e | status) _ env₁ ⟨rfl, he, h₁⟩
  · have hengine : e.isA .engine = true := he
    dsimp only
    by_cases hmissing : e.isA .engineMissing = true
    · rw [if_pos hmissing]
      exact .pure ⟨.told _ (horderly _), h₁, hunlaunched⟩
    · rw [if_neg hmissing, if_pos hengine]
      exact .throw ⟨.excused rfl (horderly _), h₁, hunlaunched⟩
  · exact .pure ⟨.told _ (horderly _), h₁, hunlaunched⟩

def usable (choice : Choice) (limit : Except Misuse τ) : Except (Failure τ) Unit := do
  let t ← limit.mapError Misuse.failure
  match choice with
  | .cli => pure ()
  | .api =>
    let _ ← Api.clientLimit t
    pure ()

omit [Clock ω τ] in
theorem usable_api (limit : τ) : usable .api (.ok limit) = (Api.clientLimit limit).map fun _ => () := by
  show (Api.clientLimit limit >>= fun _ => pure ()) = _
  cases Api.clientLimit limit <;> rfl

inductive Connection.IsFresh : Connection τ → Prop
  | cli (binary : String) (limit : τ) : IsFresh (.cli ⟨.text binary, limit⟩)
  | api (limit : τ) : IsFresh (.api limit {})

inductive Established (limited : Except (Failure τ) Unit) (before : List (Connection τ)) :
    Except (Failure τ) Link → List (Consultation τ) → List (Connection τ) → Prop
  | limitless {f : Failure τ} (h : limited = .error f) : Established limited before (.error f) [] before
  | unconnected {i : Int} {e : Failure τ} (h : limited = .ok ()) :
    Established limited before (.error (.controlPlane s!"Failed to connect to Docker: {e.message}" none))
      [.fromEnv i (.error e)] before
  | connected {c : Connection τ} {opened : List (Consultation τ)} (h : limited = .ok ()) (hc : c.IsFresh)
    (hopened : ∀ x ∈ opened, ∃ i, x = .fromEnv i (.ok ())) :
    Established limited before (.ok before.length) opened (before ++ [c])

omit [Clock ω τ] in
theorem does_connect (hclient : client.Sincere) {limit : τ} {whole : Int} (hwhole : Api.clientLimit limit = .ok whole) :
    Does (Api.connect client.consulted.onRack limit) env fun out added env' =>
      env'.world.connections = env.world.connections ∧
        ((out = .ok () ∧ added = [.fromEnv whole (.ok ())]) ∨
          ∃ e, out = .error (.controlPlane s!"Failed to connect to Docker: {e.message}" none) ∧
            added = [.fromEnv whole (.error e)]) := by
  rw [Api.connect, hwhole]
  refine .step (t := env) rfl rfl (.rescue (does_consult (hclient.fromEnv whole)) ?_ ?_)
  · rintro _ _ env₁ ⟨rfl, -, h₁⟩
    exact ⟨h₁, .inl ⟨rfl, rfl⟩⟩
  · rintro e _ env₁ ⟨rfl, he, h₁⟩
    have hengine : e.isA .engine = true := he
    rw [if_pos hengine]
    exact .throw ⟨h₁, .inr ⟨e, rfl, rfl⟩⟩

omit [Clock ω τ] in
theorem does_establish (hclient : client.Sincere) {r : Request τ} {name binary : String} {choice : Choice}
    (hname : (normalized r.name : Except (Failure τ) String) = .ok name) (hchoice : choice? name = some choice)
    (hbinary : binaryText r.binary = .ok binary) :
    Does (establish client.consulted r) env fun out added env' =>
      Established (usable choice r.limit) env.world.connections out added env'.world.connections := by
  refine .step (t := env) (congrArg (fun out => (out, env)) hname) rfl ?_
  cases hlimit : r.limit with
  | error m => exact .of_eq rfl rfl (.limitless rfl)
  | ok limit =>
    refine .step (t := env) rfl rfl ?_
    rw [hchoice]
    cases choice with
    | cli =>
      have hused : (Act.used (binaryText r.binary) : Effect (Rack (Consulted ω τ) τ) τ String) env =
          (.ok binary, env) := by
        rw [hbinary]
        rfl
      exact .step hused rfl (.of_eq rfl rfl (.connected rfl (.cli _ _) (List.forall_mem_nil _)))
    | api =>
      rw [usable_api]
      cases hwhole : Api.clientLimit limit with
      | error f =>
        have hstop : Api.connect client.consulted.onRack limit env = (.error f, env) := by
          rw [Api.connect, hwhole]
          rfl
        exact .of_eq (Act.bind_error hstop) rfl (.limitless rfl)
      | ok whole =>
        refine .bind (does_connect hclient hwhole) ?_ ?_
        · rintro _ _ env₁ ⟨h₁, ⟨-, rfl⟩ | ⟨e, ⟨⟩, -⟩⟩
          refine .of_eq rfl rfl ?_
          show Established _ _ (.ok env₁.world.connections.length) _ (env₁.world.connections ++ [.api limit {}])
          rw [h₁]
          refine .connected rfl (.api limit) ?_
          simp
        · rintro _ _ env₁ ⟨h₁, ⟨⟨⟩, -⟩ | ⟨e, ⟨⟩, rfl⟩⟩
          rw [h₁]
          exact .unconnected rfl

theorem does_isRunning (hshell : shell.Proper) (hclient : client.Sincere) {l : Link} {c : Connection τ}
    (hl : env.world.connections[l]? = some c) (hc : c.IsFresh) (container : String) :
    Does ((plane shell.consulted client.consulted).isRunning l (.text container)) env fun r added env' =>
      Viewed Bool r added ∧ env'.world.connections = env.world.connections ∧
        ((∃ cli, c = .cli cli) ∨ ∀ l ending, .launch l ending ∉ added) := by
  refine .step (connection_apply hl) rfl ?_
  cases hc with
  | cli binary limit =>
    exact (does_isRunning_cli hshell binary limit container).mono fun r added env' h => ⟨h.1, h.2, .inl ⟨_, rfl⟩⟩
  | api limit => exact (does_isRunning_api hclient _).mono fun r added env' h => ⟨h.1, h.2.1, .inr h.2.2⟩

theorem does_close (hclient : client.Sincere) {l : Link} {c : Connection τ} (hl : env.world.connections[l]? = some c)
    (hc : c.IsFresh) :
    Does ((plane shell.consulted client.consulted).close l) env fun r added _ =>
      (r = .ok () ∧ (∀ c ∈ added, Orderly c) ∧ ∀ cli, c = .cli cli → added = []) ∨
        ∃ e, r = .error e ∧ added = [.close (.error e)] ∧ ∀ cli, c ≠ .cli cli := by
  refine .step (connection_apply hl) rfl ?_
  cases hc with
  | cli binary limit => exact .pure (.inl ⟨rfl, List.forall_mem_nil _, fun _ _ => rfl⟩)
  | api limit =>
    refine .step (t := env) rfl rfl (.step rfl rfl ((does_consult hclient.close).mono ?_))
    rintro reply _ env₁ ⟨rfl, -, -⟩
    cases reply with
    | ok _ => exact .inl ⟨rfl, List.forall_mem_singleton.mpr ⟨fun _ _ => nofun, fun _ => nofun⟩, fun _ => nofun⟩
    | error e => exact .inr ⟨e, rfl, rfl, fun _ => nofun⟩

inductive Unattached (limited : Except (Failure τ) Unit) (consultations : List (Consultation τ)) : Failure τ → Prop
  | broken {e : Failure τ} (h : Broken consultations e) : Unattached limited consultations e
  | unconnected {i : Int} {e : Failure τ} (h : .fromEnv i (.error e) ∈ consultations) :
    Unattached limited consultations (.controlPlane s!"Failed to connect to Docker: {e.message}" none)
  | limitless {f : Failure τ} (hall : ∀ c ∈ consultations, c.succeeds = true) (hsound : ∀ e, ¬Broken consultations e)
    (h : limited = .error f) : Unattached limited consultations f

omit [Clock ω τ] in
theorem unattached_iff {limited : Except (Failure τ) Unit} {consultations : List (Consultation τ)} {f : Failure τ}
    (hlimit : limited = .ok ()) (hopened : ∀ i e, .fromEnv i (.error e) ∉ consultations) :
    Unattached limited consultations f ↔ Broken consultations f := by
  constructor
  · rintro (h | h | ⟨-, -, h⟩)
    · exact h
    · exact absurd h (hopened _ _)
    · cases hlimit.symm.trans h
  · exact .broken

omit [Seconds τ] [Clock ω τ] in
theorem Orderly.not_failed {consultations : List (Consultation τ)} (h : ∀ c ∈ consultations, Orderly c) :
    (∀ i e, .fromEnv i (.error e) ∉ consultations) ∧ ∀ f, ¬Broken consultations f :=
  ⟨fun i e hc => (h _ hc).1 i e rfl, not_broken fun c hc => (h c hc).2⟩

omit [Clock ω τ] in
theorem Orderly.not_unattached {limited : Except (Failure τ) Unit} {consultations : List (Consultation τ)}
    {f : Failure τ} (hlimit : limited = .ok ()) (hall : ∀ c ∈ consultations, Orderly c) :
    ¬ Unattached limited consultations f := by
  rw [unattached_iff hlimit (Orderly.not_failed hall).1]
  exact (Orderly.not_failed hall).2 f

omit [Clock ω τ] in
theorem Orderly.unattached_broken {limited : Except (Failure τ) Unit} {consultations : List (Consultation τ)}
    {c : Consultation τ} {e f : Failure τ} (hlimit : limited = .ok ()) (hall : ∀ c ∈ consultations, Orderly c)
    (hc : c.Breaks e) : Unattached limited (consultations ++ [c]) f ↔ e = f := by
  rw [unattached_iff hlimit, broken_append, or_iff_right ((Orderly.not_failed hall).2 f), broken_singleton hc, eq_comm]
  intro i g h
  obtain h | h := List.mem_append.mp h
  · exact (Orderly.not_failed hall).1 i g h
  · cases List.mem_singleton.mp h
    cases hc

namespace Doctor

theorem does_look (hshell : shell.Proper) (hclient : client.Sincere) {l : Link} {c : Connection τ}
    (hl : env.world.connections[l]? = some c) (hc : c.IsFresh) (container : String) :
    Does (do
      try (plane shell.consulted client.consulted).isRunning l (.text container)
      catch e => if e.isA .playground then pure false else throw e) env fun r added env' =>
      env'.world.connections = env.world.connections ∧
        ((∃ b c, r = .ok b ∧ added = [c] ∧ Orderly c) ∨
          ∃ e x, r = .error e ∧ added = [x] ∧ x.Breaks e ∧ ∃ cli, c = .cli cli) := by
  refine .rescue (does_isRunning hshell hclient hl hc container) ?_ ?_
  · rintro _ _ env₁ ⟨⟨_, hlook⟩, h₁, -⟩
    exact ⟨h₁, .inl ⟨_, _, rfl, rfl, hlook⟩⟩
  · rintro _ _ env₁ ⟨hviewed, h₁, hcli⟩
    cases hviewed with
    | excused hf hlook =>
      rw [if_pos hf]
      exact .pure ⟨h₁, .inl ⟨false, _, rfl, rfl, hlook⟩⟩
    | refused launch hf =>
      rw [if_neg (Bool.eq_false_iff.mp hf.isA.2.2)]
      exact .throw ⟨h₁, .inr ⟨_, _, rfl, rfl, .refused launch hf,
        hcli.resolve_right fun h => h _ _ (List.mem_singleton_self _)⟩⟩

inductive Looked : Except (Failure τ) Bool → List (Consultation τ) → Prop
  | told (b : Bool) {looks : List (Consultation τ)} (hlooks : ∀ c ∈ looks, Orderly c) : Looked (.ok b) looks
  | broken {e : Failure τ} {looks : List (Consultation τ)} {c : Consultation τ} (hlooks : ∀ c ∈ looks, Orderly c)
    (hc : c.Breaks e) : Looked (.error e) (looks ++ [c])

theorem does_closing_look (hshell : shell.Proper) (hclient : client.Sincere) {l : Link} {c : Connection τ}
    (hl : env.world.connections[l]? = some c) (hc : c.IsFresh) (container : String) :
    Does (Act.ensure (do
      try (plane shell.consulted client.consulted).isRunning l (.text container)
      catch e => if e.isA .playground then pure false else throw e)
      ((plane shell.consulted client.consulted).close l)) env fun out added _ => Looked out added := by
  refine .ensure (does_look hshell hclient hl hc container) ?_
  rintro _ _ env₁ ⟨h₁, ⟨b, look, rfl, rfl, hlook⟩ | ⟨e, x, rfl, rfl, hx, cli, rfl⟩⟩
  · have hlooks : ∀ c ∈ [look], Orderly c := List.forall_mem_singleton.mpr hlook
    refine (does_close hclient (h₁ ▸ hl) hc).mono ?_
    rintro _ closes env₂ (⟨rfl, hcloses, -⟩ | ⟨e, rfl, rfl, -⟩)
    · exact .told b (List.forall_mem_append.mpr ⟨hlooks, hcloses⟩)
    · exact .broken hlooks (.unclosed e)
  · -- Only the `docker` command is launched, and it leaves nothing to close.
    refine (does_close hclient (h₁ ▸ hl) hc).mono ?_
    rintro _ closes env₂ (⟨rfl, -, hnone⟩ | ⟨_, -, -, hother⟩)
    · rw [hnone cli rfl, List.append_nil]
      exact .broken (List.forall_mem_nil _) hx
    · exact absurd rfl (hother cli)

theorem does_attached (hshell : shell.Proper) (hclient : client.Sincere) {a : Attributes}
    {name binary container : String} {choice : Choice} {limit : Except Misuse τ}
    (hname : (normalized (.text name) : Except (Failure τ) String) = .ok name)
    (hchoice : choice? name = some choice)
    (hbinary : binaryText (setting a "docker_binary" (.text "docker")) = .ok binary) :
    Does (attached shell.consulted client.consulted a name (.text container) limit) env fun out added _ =>
      ∀ f, out = .error f ↔ Unattached (usable choice limit) added f := by
  refine .bind (does_establish hclient hname hchoice hbinary) ?_ ?_
  · rintro link opened env₁ hestablished
    generalize hconnections : env₁.world.connections = connections at hestablished
    cases hestablished with
    | @connected c _ hlimit hc hopened =>
      have hl : env₁.world.connections[env.world.connections.length]? = some c := by
        rw [hconnections, List.getElem?_concat_length]
      have hlimit : usable choice limit = .ok () := hlimit
      have hopened : ∀ x ∈ opened, Orderly x := by
        intro x hx
        obtain ⟨i, rfl⟩ := hopened x hx
        exact ⟨fun _ _ => nofun, fromEnv_not_breaks⟩
      refine .bind (does_closing_look hshell hclient hl hc container) ?_ ?_
      · rintro b looks env₂ (⟨_, hlooks⟩ | -)
        refine .of_eq rfl rfl fun f => ?_
        rw [List.append_nil]
        exact iff_of_false nofun (Orderly.not_unattached hlimit (List.forall_mem_append.mpr ⟨hopened, hlooks⟩))
      · rintro e looks env₂ (- | ⟨hlooks, hc⟩) f
        rw [← List.append_assoc, Orderly.unattached_broken hlimit (List.forall_mem_append.mpr ⟨hopened, hlooks⟩) hc,
          Except.error.injEq]
  · rintro e opened env₁ hestablished f
    generalize env₁.world.connections = connections at hestablished
    cases hestablished with
    | limitless h =>
      constructor
      · rintro ⟨⟩
        exact .limitless (List.forall_mem_nil _) (not_broken (List.forall_mem_nil _)) h
      · rintro (h' | h' | ⟨-, -, h'⟩)
        · exact absurd h' (not_broken (List.forall_mem_nil _) f)
        · cases h'
        · cases h.symm.trans h'
          rfl
    | @unconnected i e h =>
      constructor
      · rintro ⟨⟩
        exact .unconnected (List.mem_singleton_self _)
      · rintro (h' | h' | ⟨-, -, h'⟩)
        · exact absurd h' (not_broken_singleton fromEnv_not_breaks f)
        · cases List.mem_singleton.mp h'
          rfl
        · cases h.symm.trans h'

end Doctor

end

end Playpen.Docker
