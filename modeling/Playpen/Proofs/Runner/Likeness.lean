import Playpen.Proofs.Plane.Likeness
import Playpen.Sandbox.Runner

namespace Playpen

open Act (Agree InStep)
open Utf8 (Bytes)

variable {ω τ α : Type}

namespace Settings

structure TextualMarkers (s : Settings τ) : Prop where
  opening : isOdd s.generatedCodeBegin = false
  closing : isOdd s.generatedCodeEnd = false
  noise : ∀ v ∈ s.noiseMarkers, isOdd v = false

theorem textBeforeOdd_eq_none {noise : List Value} (h : ∀ v ∈ noise, isOdd v = false) :
    textBeforeOdd noise = none := by
  induction noise with
  | nil => rfl
  | cons v rest ih =>
    obtain ⟨hv, hrest⟩ := List.forall_mem_cons.mp h
    simp [textBeforeOdd, hv, ih hrest]

theorem TextualMarkers.meetsOdd {s : Settings τ} (h : s.TextualMarkers) (sections inside : Bool)
    (lines : List (List Char)) : s.meetsOdd sections inside lines = false := by
  induction lines generalizing inside with
  | nil => rfl
  | cons line rest ih =>
    simp only [Settings.meetsOdd, h.opening, h.closing, textBeforeOdd_eq_none h.noise, ih]
    simp

def Indifferent (s : Settings τ) (sections : Bool) (W : Bytes → Bytes → Prop) : Prop :=
  ∀ o o', W o o' → s.meetsOdd sections false (Sanitizer.lines (.bytes o)) =
    s.meetsOdd sections false (Sanitizer.lines (.bytes o'))

theorem TextualMarkers.indifferent {s : Settings τ} (h : s.TextualMarkers) (sections : Bool)
    (W : Bytes → Bytes → Prop) : s.Indifferent sections W := by
  intro o o' _
  rw [h.meetsOdd, h.meetsOdd]

end Settings

def Runner.Fits (fit : EnvironmentId → Prop) (r : Runner τ) : Prop := ∀ id, r.environment = some id → fit id

theorem Runner.fits_some {fit : EnvironmentId → Prop} {id : EnvironmentId} (hid : fit id) {r : Runner τ}
    {suspect : Bool} : Fits fit { r with environment := some id, suspect } := by
  rintro _ ⟨⟩
  exact hid

variable [Seconds τ] [Clock ω τ]

namespace Likeness

variable (L : Likeness ω τ)

def Reads (sections : Bool) : Prop := ∀ s, L.admits s → s.Indifferent sections L.output

structure Runners (fit : EnvironmentId → Prop) (r r' : Runner τ) : Prop where
  same : r = r'
  admits : L.admits r.settings
  fits : r.Fits fit

structure Seats (fit : EnvironmentId → Prop) (s s' : Seat ω τ) : Prop where
  runner : L.Runners fit s.runner s'.runner
  env : L.Envs s.env s'.env

inductive Judged : Failure τ → Failure τ → Prop
  | given {f f'} (h : L.failure f f') : Judged f f'
  | process (code) {o o'} (h : L.SameOutput → o = o') : Judged (.process code o) (.process code o')
  | memoryLimit (code) {o o'} (limit) (h : L.SameOutput → o = o') :
      Judged (.memoryLimit code o limit) (.memoryLimit code o' limit)

def Outcomes (o o' : RunOutcome) : Prop := L.SameOutput → o = o'

variable {L} {fit : EnvironmentId → Prop}

theorem effect {F : Failure τ → Failure τ → Prop} {V : α → α → Prop} {x x' : Effect ω τ α}
    (hx : InStep L.Envs F V x x') : InStep (L.Seats fit) F V (Seat.effect x) (Seat.effect x') :=
  .within (fun _ _ hs => hs.env) (fun _ _ _ _ hs he => ⟨hs.runner, he⟩) hx

theorem runner :
    InStep (L.Seats fit) L.failure (L.Runners fit) (Act.read Seat.runner) (Act.read Seat.runner) :=
  .read fun _ _ hs => hs.runner

theorem update {f : Runner τ → Runner τ} (hf : ∀ r, (f r).settings = r.settings)
    (hfits : ∀ r : Runner τ, r.Fits fit → (f r).Fits fit) :
    InStep (L.Seats fit) L.failure (fun _ _ => True) (Seat.update f) (Seat.update f) :=
  .modify fun s _ ⟨⟨hr, ha, hfit⟩, he⟩ =>
    ⟨⟨congrArg f hr, (hf s.runner).symm ▸ ha, hfits s.runner hfit⟩, he⟩

theorem seatNote {level : Level} {m m' : String → Except Misuse String}
    (h : ∀ key, Agree Eq (fun t t' => L.heard level = true → t = t') (m key) (m' key)) :
    InStep (L.Seats fit) L.failure (fun _ _ => True) (Seat.note level m) (Seat.note level m') := by
  have hget : InStep (L.Seats fit) L.failure (L.Seats fit) Act.get Act.get := fun _ _ h => ⟨.ok h, h⟩
  refine hget.bind ?_
  intro q q' hq
  refine effect (noteUsing ?_)
  rw [hq.runner.same]
  cases q'.runner.key.display with
  | ok key => exact h key
  | error e => exact .error rfl

theorem seatSay (level : Level) (m : String → Except Misuse String) :
    InStep (L.Seats fit) L.failure (fun _ _ => True) (Seat.note level m) (Seat.note level m) := by
  refine seatNote fun key => ?_
  cases m key with
  | ok _ => exact .ok fun _ => rfl
  | error _ => exact .error rfl

theorem lifted {σ : Type} {S : σ → σ → Prop} (r : Except (Failure τ) α) :
    InStep S L.failure Eq (Act.lift r) (Act.lift r) := .lift (.refl L.same r)

theorem Judged.isA {f f' : Failure τ} (h : L.Judged f f') (k : Kind) : f.isA k = f'.isA k := by
  cases h with
  | given h => exact L.isA h k
  | process | memoryLimit => rfl

theorem judged {σ : Type} {S : σ → σ → Prop} {β : Type} {V : α → β → Prop} {x : Act σ (Failure τ) α}
    {x' : Act σ (Failure τ) β} (hx : InStep S L.failure V x x') : InStep S L.Judged V x x' :=
  hx.mono (fun _ _ => .given) fun _ _ h => h

theorem SameOutput.reads (h : L.SameOutput) (sections : Bool) : L.Reads sections := by
  intro s _ o o' ho
  rw [h o o' ho]

theorem sanitized_alike {sections : Bool} (hreads : L.Reads sections) {settings : Settings τ}
    (hs : L.admits settings) {c c' : Capture} (hc : L.Captures c c') :
    Agree Eq (fun z z' => L.SameOutput → z = z') (settings.sanitized sections (.bytes c.output))
      (settings.sanitized sections (.bytes c'.output)) := by
  unfold Settings.sanitized
  rw [hreads settings hs _ _ hc.2]
  split
  · exact .error rfl
  · exact .ok fun hsame => by rw [hsame _ _ hc.2]

theorem classify_alike {z z' : Sanitized} (limit exitCode : Int) (hz : L.SameOutput → z = z') :
    Agree L.Judged L.Outcomes (Runner.classify limit exitCode z) (Runner.classify limit exitCode z') := by
  unfold Runner.classify
  by_cases hkilled : exitCode = Runner.killedExitCode
  · simp only [hkilled, ↓reduceIte]
    split
    · exact .error (.memoryLimit _ _ fun hsame => by rw [hz hsame])
    · exact .error (.given (L.same _))
  · simp only [hkilled, ↓reduceIte]
    split
    · exact .error (.process _ fun hsame => by rw [hz hsame])
    · exact .ok fun hsame => by rw [hz hsame]

end Likeness

namespace Runner

open Likeness

variable {L : Likeness ω τ} {fit : EnvironmentId → Prop} {plane plane' : ControlPlane ω τ}
  (h : plane.AlikeOn L fit plane')

include h

theorem createEnvironment_alike :
    InStep (L.Seats fit) L.failure (fun id id' => id = id' ∧ fit id) (createEnvironment plane)
      (createEnvironment plane') := by
  refine .bind runner ?_
  rintro r _ ⟨rfl, _⟩
  refine .bind (use _) ?_
  rintro ⟨start, key⟩ _ rfl
  refine .bind (effect draw) ?_
  rintro fresh _ rfl
  refine .bind (effect (timed _ (h.create _ _))) ?_
  rintro id _ ⟨rfl, hid⟩
  exact .bind (seatSay _ _) fun _ _ _ => .pure ⟨rfl, hid⟩

theorem start_alike : InStep (L.Seats fit) L.failure (fun _ _ => True) (start plane) (start plane') := by
  refine .bind runner ?_
  rintro r _ ⟨rfl, _⟩
  refine .ite .rfl (fun _ => .pure trivial) fun _ => .ite .rfl (fun _ => ?_) fun _ => ?_
  · refine .bind (createEnvironment_alike h) ?_
    rintro id _ ⟨rfl, hid⟩
    exact update (fun _ => rfl) fun _ _ => fits_some hid
  · refine .bind (effect (h.isRunning _ _)) ?_
    rintro running _ ⟨rfl, hrunning⟩
    refine .ite .rfl (fun _ => .bind (use _) ?_) fun hn => ?_
    · rintro name _ rfl
      exact .bind (V := fun _ _ => False) (.throw (L.same _)) fun _ _ h => h.elim
    · have hid : fit r.settings.containerName := hrunning (by simpa using hn)
      exact .bind (update (fun _ => rfl) fun _ _ => fits_some hid) fun _ _ _ => seatSay _ _

theorem requireEnvironment_alike :
    InStep (L.Seats fit) L.failure (fun id id' => id = id' ∧ fit id) (requireEnvironment plane)
      (requireEnvironment plane') := by
  refine .bind runner ?_
  rintro r _ ⟨rfl, _⟩
  refine .ite .rfl (fun _ => .bind (use _) ?_) fun _ => ?_
  · rintro key _ rfl
    exact .bind (V := fun _ _ => False) (.throw (L.same _)) fun _ _ h => h.elim
  · refine .ite .rfl (fun _ => .bind (start_alike h) fun _ _ _ => ?_) fun _ => ?_
    all_goals
      refine .bind runner ?_
      rintro r _ ⟨rfl, _, hfits⟩
      cases henv : r.environment with
      | some id => exact .pure ⟨rfl, hfits id henv⟩
      | none => exact .throw (L.same _)

theorem inject_alike (source : Raw) :
    InStep (L.Seats fit) L.failure Eq (inject plane source) (inject plane' source) := by
  refine .bind (requireEnvironment_alike h) ?_
  rintro id _ ⟨rfl, hid⟩
  refine .bind runner ?_
  rintro r _ ⟨rfl, _⟩
  refine .bind (lifted _) ?_
  rintro data _ rfl
  refine .bind (effect wall) ?_
  rintro time _ rfl
  refine .bind (lifted _) ?_
  rintro archive _ rfl
  exact effect (timed _ (h.inject _ _ _ _ hid))

theorem verifyIfSuspect_alike :
    InStep (L.Seats fit) L.failure (fun _ _ => True) (verifyIfSuspect plane) (verifyIfSuspect plane') := by
  refine .bind runner ?_
  rintro r _ ⟨rfl, _⟩
  split
  · refine .bind (effect (h.isRunning _ _)) ?_
    rintro running _ ⟨rfl, _⟩
    refine .ite .rfl (fun _ => update (fun _ => rfl) fun _ hr => hr) fun _ => .ite .rfl (fun _ => .bind (use _) ?_)
      fun _ => ?_
    · rintro name _ rfl
      exact .throw (L.same _)
    refine .bind (update (fun _ => rfl) fun _ _ => nofun) fun _ _ _ => .bind (use _) ?_
    rintro place _ rfl
    refine .bind (effect (note fun _ => rfl)) fun _ _ _ => .bind (V := fun _ _ => True) ?_ fun _ _ _ => ?_
    · refine .rescue ((effect (h.remove _ _)).mono (fun _ _ h => h) fun _ _ _ => trivial) fun e e' he => ?_
      refine .ite (by rw [L.isA he]) (fun _ => effect (note fun hl => ?_)) fun _ => .throw he
      rw [L.message he hl]
    · refine .bind (createEnvironment_alike h) ?_
      rintro fresh _ ⟨rfl, hid⟩
      exact update (fun _ => rfl) fun _ _ => fits_some hid
  · exact .pure trivial

theorem abortRunaway_alike (id : EnvironmentId) :
    InStep (L.Seats fit) L.failure Eq (abortRunaway plane id) (abortRunaway plane' id) := by
  refine .bind runner ?_
  rintro r _ ⟨rfl, _⟩
  refine .rescue (effect (h.terminate _ _ _)) fun e e' he =>
    .ite (by rw [L.isA he]) (fun _ => ?_) fun _ => .throw he
  refine .bind (use _) ?_
  rintro place _ rfl
  refine (effect (note fun hl => ?_)).mono (fun _ _ h => h) fun _ _ _ => rfl
  rw [L.message he hl]

theorem execAborting_alike (id : EnvironmentId) (command : Command τ) :
    InStep (L.Seats fit) L.failure L.Captures (execAborting plane id command) (execAborting plane' id command) := by
  refine .bind runner ?_
  rintro r _ ⟨rfl, _⟩
  refine .rescue (effect (timed _ (h.exec _ _ _))) fun e e' he =>
    .ite (by rw [L.isA he]) (fun _ => ?_) fun _ => .throw he
  refine .bind (update (fun _ => rfl) fun _ hr => hr) fun _ _ _ => .bind (seatSay _ _) fun _ _ _ => ?_
  exact .bind (abortRunaway_alike h id) fun _ _ _ => .throw he

theorem run_alike {sections : Bool} (hreads : L.Reads sections) (deadline : Option τ) :
    InStep (L.Seats fit) L.Judged L.Outcomes (run plane sections deadline) (run plane' sections deadline) := by
  refine .bind (judged (verifyIfSuspect_alike h)) fun _ _ _ => .bind (judged (requireEnvironment_alike h)) ?_
  rintro id _ ⟨rfl, _⟩
  refine .bind (judged runner) ?_
  rintro r _ ⟨rfl, hr, _⟩
  refine .bind (judged (effect now)) ?_
  rintro instant _ rfl
  refine .bind (judged (lifted _)) ?_
  rintro timeout _ rfl
  refine .bind (judged (use _)) ?_
  rintro line _ rfl
  refine .bind (judged (seatSay _ _)) fun _ _ _ => .bind (judged (execAborting_alike h id _)) fun c c' hc => ?_
  refine .bind (judged (used (sanitized_alike hreads hr hc))) fun z z' hz => .lift ?_
  rw [hc.1]
  exact classify_alike _ _ hz

theorem memoryUsage_alike : InStep (L.Seats fit) L.failure Eq (memoryUsage plane) (memoryUsage plane') := by
  refine .bind runner ?_
  rintro r _ ⟨rfl, _⟩
  cases r.environment with
  | none => exact .pure rfl
  | some id =>
    refine .rescue (.bind (effect (h.memoryUsage _ _)) ?_) fun e e' he => ?_
    · rintro value _ rfl
      refine .bind (use _) ?_
      rintro n _ rfl
      exact .pure rfl
    · refine .ite (by rw [L.isA he]) (fun _ => ?_) fun _ => .throw he
      refine .bind (seatNote fun key => ?_) fun _ _ _ => .pure rfl
      exact .ok fun hl => by rw [L.message he hl]

theorem toolchainVersion_alike (hsame : L.SameOutput) (timeout : Option τ) :
    InStep (L.Seats fit) L.failure Eq (toolchainVersion plane timeout) (toolchainVersion plane' timeout) := by
  refine .bind (verifyIfSuspect_alike h) fun _ _ _ => .bind (requireEnvironment_alike h) ?_
  rintro id _ ⟨rfl, _⟩
  refine .bind runner ?_
  rintro r _ ⟨rfl, _⟩
  refine .bind (use _) ?_
  rintro line _ rfl
  refine .bind (effect (h.exec _ _ _)) ?_
  rintro ⟨code, output⟩ ⟨_, output'⟩ ⟨rfl, ho⟩
  obtain rfl : output = output' := hsame _ _ ho
  refine .ite .rfl (fun _ => ?_) fun _ => .pure rfl
  exact .bind (V := fun _ _ => True) (.throw (L.same _)) fun _ _ _ => .pure rfl

theorem validateToolchain_alike (hsame : L.SameOutput) :
    InStep (L.Seats fit) L.failure (fun _ _ => True) (validateToolchain plane) (validateToolchain plane') := by
  refine .bind (toolchainVersion_alike h hsame none) ?_
  rintro version _ rfl
  exact .ite .rfl (fun _ => .throw (L.same _)) fun _ => .pure trivial

theorem close_alike : InStep (L.Seats fit) L.failure Eq (close plane) (close plane') := by
  refine .bind runner ?_
  rintro r _ ⟨rfl, _⟩
  refine .ite .rfl (fun _ => .pure rfl) fun _ => .bind (update (fun _ => rfl) fun _ hr => hr) fun _ _ _ => ?_
  refine .ensure ?_ (effect (h.close _))
  split
  · refine .bind (update (fun _ => rfl) fun _ _ => nofun) fun _ _ _ => .bind (effect (h.remove _ _)) fun _ _ _ => ?_
    exact (seatSay _ _).mono (fun _ _ h => h) fun _ _ _ => rfl
  · exact .pure rfl

theorem bringUp_alike {r : Runner τ} (hr : L.Runners fit r r) :
    InStep L.Envs L.failure (L.Runners fit) (bringUp plane r) (bringUp plane' r) := by
  intro env env' he
  obtain ⟨hout, hseat⟩ := start_alike h ⟨r, env⟩ ⟨r, env'⟩ ⟨hr, he⟩
  unfold bringUp
  rcases hs : start plane ⟨r, env⟩ with ⟨out, seat⟩
  rcases hs' : start plane' ⟨r, env'⟩ with ⟨out', seat'⟩
  rw [hs, hs'] at hout hseat
  cases hout with
  | ok _ => exact ⟨.ok hseat.runner, hseat.env⟩
  | @error e e' hf =>
    have closed : InStep L.Envs L.failure (L.Runners fit) (plane.close r.link >>= fun _ => Act.fail e)
        (plane'.close r.link >>= fun _ => Act.fail e') :=
      (h.close r.link).bind fun _ _ _ => InStep.throw hf
    exact closed _ _ hseat.env

theorem open_alike {settings : Settings τ} (hs : L.admits settings) (key : SessionKey) :
    InStep L.Envs L.failure (L.Runners fit) (Runner.open plane settings key)
      (Runner.open plane' settings key) := by
  refine .bind (V := L.Runners fit) (.bind (h.connect settings) ?_) ?_
  · rintro link _ rfl
    exact .pure ⟨rfl, hs, nofun⟩
  · intro r r' hr
    obtain rfl := hr.same
    exact bringUp_alike h hr

end Runner

end Playpen
