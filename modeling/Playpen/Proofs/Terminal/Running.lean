import Playpen.Proofs.Config.Typed
import Playpen.Proofs.Engine.Closing
import Playpen.Terminal.Program

namespace Playpen

open Act (Does)
open CommandLine (Invocation RunRequest)
open PlaneCall (created? removed?)
open Terminal (Session onSite noted showAll setUpLog)

instance {σ ω τ : Type} [Docker.Racked σ ω τ] : Docker.Racked (Recorded σ τ) ω τ where
  rack w := Docker.Racked.rack w.world
  setRack r w := { w with world := Docker.Racked.setRack r w.world }

instance : Docker.Racked Script Script Double where
  rack w := { outer := w }
  setRack r _ := r.outer

theorem Act.map_apply {σ ε α β : Type} (f : α → β) (x : Act σ ε α) (s : σ) :
    (f <$> x) s = ((x s).1.map f, (x s).2) := by
  show Act.bind x (fun a => Act.pure (f a)) s = _
  unfold Act.bind
  rcases x s with ⟨_ | _, _⟩ <;> rfl

theorem Act.ensure_apply {σ ε α : Type} (x : Act σ ε α) (final : Act σ ε Unit) (s : σ) :
    x.ensure final s = ((final (x s).2).1.bind fun _ => (x s).1, (final (x s).2).2) := by
  unfold Act.ensure
  dsimp only
  rcases final (x s).2 with ⟨_ | _, _⟩ <;> rfl

namespace Program

/-- What a run hands to the engine: a source that can be read, is no larger than allowed and goes with a
time limit, or with none. -/
inductive Submits (s : Surroundings) (c : Config) (r : RunRequest) : Submission Double → Prop
  | intro {code data timeout} (hcode : source s r.file = .ok (.ok code)) (hdata : encoded code = .ok data)
    (hsize : exceeds data.length c.maxCodeSize = .ok false) (htime : r.timeout = .ok timeout) :
    Submits s c r (submission r timeout code)

inductive Unsubmitted (s : Surroundings) (c : Config) (r : RunRequest) : Except Config.Fault Nat → Prop
  | unreadable {f} (h : source s r.file = .error f) : Unsubmitted s c r (.error f)
  | unopened {message} (h : source s r.file = .ok (.error message)) : Unsubmitted s c r (.ok exitConfig)
  | unencoded {code f} (hcode : source s r.file = .ok (.ok code)) (h : encoded code = .error f) :
    Unsubmitted s c r (.error f)
  | tooLarge {code data} (hcode : source s r.file = .ok (.ok code)) (hdata : encoded code = .ok data)
    (h : exceeds data.length c.maxCodeSize = .ok true) : Unsubmitted s c r (.ok exitFailed)
  | untimed {code data m} (hcode : source s r.file = .ok (.ok code)) (hdata : encoded code = .ok data)
    (hsize : exceeds data.length c.maxCodeSize = .ok false) (h : r.timeout = .error m) :
    Unsubmitted s c r (.error m.failure)

def lastShown (r : RunRequest) (result : ExecutionResult) : Except Misuse Shown :=
  if r.json then Shown.asJson result else Shown.usage result

def statusOf (result : ExecutionResult) : Nat := if result.success then exitOk else exitFailed

variable {s : Surroundings} {c : Config} {r : RunRequest}

theorem submits_or_unsubmitted (hc : c.Typed) (s : Surroundings) (r : RunRequest) :
    (∃ sub, Submits s c r sub) ∨ ∃ out, Unsubmitted s c r out := by
  obtain ⟨limit, hlimit, _⟩ := hc.maxCodeSize
  rcases hsource : source s r.file with f | message | code
  · exact .inr ⟨_, .unreadable hsource⟩
  · exact .inr ⟨_, .unopened hsource⟩
  rcases hdata : encoded code with f | data
  · exact .inr ⟨_, .unencoded hsource hdata⟩
  have hsize : exceeds data.length c.maxCodeSize = .ok (decide (limit < data.length)) := by
    rw [hlimit]
    rfl
  cases hlarge : decide (limit < (data.length : Int)) with
  | true => exact .inr ⟨_, .tooLarge hsource hdata (hlarge ▸ hsize)⟩
  | false =>
    rw [hlarge] at hsize
    rcases htime : r.timeout with m | timeout
    · exact .inr ⟨_, .untimed hsource hdata hsize htime⟩
    · exact .inl ⟨_, .intro hsource hdata hsize htime⟩

theorem Submits.unique {sub sub' : Submission Double} (h : Submits s c r sub) (h' : Submits s c r sub') :
    sub = sub' := by
  obtain ⟨hcode, _, _, htime⟩ := h
  obtain ⟨hcode', _, _, htime'⟩ := h'
  cases hcode.symm.trans hcode'
  cases htime.symm.trans htime'
  rfl

theorem Submits.not_unsubmitted {sub : Submission Double} {out : Except Config.Fault Nat}
    (h : Submits s c r sub) : ¬ Unsubmitted s c r out := by
  obtain ⟨hcode, hdata, hsize, htime⟩ := h
  rintro (h | h | ⟨hcode', h⟩ | ⟨hcode', hdata', h⟩ | ⟨hcode', hdata', -, h⟩)
  · cases hcode.symm.trans h
  · cases hcode.symm.trans h
  · cases hcode.symm.trans hcode'
    rw [hdata] at h
    cases h
  · cases hcode.symm.trans hcode'
    obtain rfl := Except.ok.inj (hdata.symm.trans hdata')
    cases hsize.symm.trans h
  · cases htime.symm.trans h

theorem decoded_error {data : List UInt8} {f : Config.Fault} (h : decoded data = .error f) :
    f = .other .decoding none := by
  unfold decoded at h
  split at h
  · cases h
  · cases h
    rfl

theorem source_error {file : Path} {f : Config.Fault} (h : source s file = .error f) :
    f = .other .decoding none ∨ f = .other .value none := by
  unfold source at h
  split at h
  · left
    cases hi : s.input with
    | bytes data =>
      rw [hi, textOfInput] at h
      rcases hdata : decoded data with g | points <;> rw [hdata] at h <;> cases h
      exact decoded_error hdata
    | text points =>
      rw [hi] at h
      cases h
  · split at h
    · cases h
      exact .inr rfl
    · cases h
    · rename_i data _
      left
      rcases hdata : decoded data with g | points <;> rw [hdata] at h <;> cases h
      exact decoded_error hdata

theorem Unsubmitted.foreign {f : Config.Fault} (h : Unsubmitted s c r (.error f)) :
    f.isA .playground = false ∧ f.isA .configuration = false := by
  cases h with
  | unreadable h =>
    obtain rfl | rfl := source_error h
    · exact ⟨rfl, rfl⟩
    · exact ⟨rfl, rfl⟩
  | unencoded _ h =>
    unfold encoded at h
    split at h <;> cases h
    exact ⟨rfl, rfl⟩
  | @untimed _ _ m => cases m <;> exact ⟨rfl, rfl⟩

section

variable {σ α β : Type} {plane : ControlPlane σ Double}

theorem lift_bind {r : Except Config.Fault α} {a : α} (h : r = .ok a) (f : α → Session σ β) (t : Terminal σ) :
    (Act.lift r >>= f) t = f a t := by
  subst h
  rfl

theorem lift_bind_error {r : Except Config.Fault α} {g : Config.Fault} (h : r = .error g)
    (f : α → Session σ β) (t : Terminal σ) : (Act.lift r >>= f) t = (.error g, t) := by
  subst h
  rfl

theorem used_eq_ok {r : Except Misuse α} {a : α} (h : r = .ok a) : Config.used r = .ok a := by
  rw [h]
  rfl

theorem used_eq_error {r : Except Misuse α} {m : Misuse} (h : r = .error m) :
    Config.used r = .error m.failure := by
  rw [h]
  rfl

theorem misuse_foreign (m : Misuse) :
    (m.failure : Config.Fault).isA .playground = false ∧ (m.failure : Config.Fault).isA .configuration = false := by
  cases m <;> exact ⟨rfl, rfl⟩

theorem report_foreign {f : Config.Fault} (h : f.isA .playground = false ∧ f.isA .configuration = false)
    (t : Terminal σ) : report f t = (.error f, t) := by
  unfold report
  rw [h.1, h.2]
  rfl

variable (plane) in
theorem cleanUp_apply (debug : Bool) (t : Terminal σ) :
    let shut := Engine.shutdown plane t.site
    (cleanUp plane debug t).2.site.env.world = shut.2.env.world ∧
      ((∀ f, shut.1 = .error f → f.isA .playground = true) → (cleanUp plane debug t).1 = .ok ()) := by
  intro shut
  have hsite : onSite (Engine.shutdown plane) t = (shut.1, { t with site := shut.2 }) := rfl
  unfold cleanUp
  -- Failures of the sandbox are noted, and the note goes to the log of the same world.
  have hcaught : ∃ out site, tryCatch (onSite (Engine.shutdown plane)) (fun f =>
      if f.isA .playground then onSite (Site.note .warning s!"Sandbox cleanup failed: {f.message}") else throw f) t =
        (out, { t with site }) ∧ site.env.world = shut.2.env.world ∧
        ((∀ f, shut.1 = .error f → f.isA .playground = true) → out = .ok ()) := by
    show ∃ out site, Act.rescue _ _ t = _ ∧ _
    unfold Act.rescue
    rw [hsite]
    rcases shut.1 with f | u
    · cases hf : f.isA .playground with
      | true =>
        simp only [hf, if_true]
        exact ⟨_, _, rfl, rfl, fun _ => rfl⟩
      | false =>
        simp only [hf, Bool.false_eq_true, if_false]
        refine ⟨_, _, rfl, rfl, fun h => ?_⟩
        cases hf.symm.trans (h f rfl)
    · exact ⟨_, _, rfl, rfl, fun _ => rfl⟩
  obtain ⟨out, site, hcaught, hworld, hout⟩ := hcaught
  cases out with
  | error f =>
    rw [Act.bind_error hcaught]
    exact ⟨hworld, fun h => nomatch hout h⟩
  | ok u =>
    rw [Act.bind_ok hcaught]
    cases debug with
    | true => exact ⟨hworld, fun _ => rfl⟩
    | false => exact ⟨hworld, fun _ => rfl⟩

theorem configuration_site (s : Surroundings) (i : Invocation) (t : Terminal σ) :
    ∃ log, (configuration s i t).2.site = { t.site with env := { t.site.env with log } } := by
  unfold configuration
  have hread (m : Config.Manager) (t : Terminal σ) :
      ∃ log, (noted (Config.Manager.read s.files s.environment m.path) t).2.site =
        { t.site with env := { t.site.env with log } } := ⟨_, rfl⟩
  cases i.config with
  | none => exact hread _ t
  | some path =>
    rcases hthere : Config.isThere s.files path with f | (_ | _)
    · simp only [hthere]
      exact ⟨_, rfl⟩
    · simp only [hthere]
      exact ⟨_, rfl⟩
    · simp only [hthere]
      exact hread _ t

theorem prepare_apply (hc : c.Typed) (i : Invocation) (t : Terminal σ) :
    (prepare i c t).1 = .ok () ∧
      ∃ tracer, (prepare i c t).2.site = { t.site with env := { t.site.env with tracer } } := by
  obtain ⟨level, hlevel⟩ := hc.logLevel
  unfold prepare setUpLog
  rw [hlevel]
  cases i.verbose <;> cases i.debug <;> exact ⟨rfl, _, rfl⟩

end

variable {σ ω : Type} [Clock σ Double] [Clock ω Double] [Docker.Racked σ ω Double]
  {shell : Docker.Shell ω Double} {client : Docker.Client ω Double} {plane : ControlPlane σ Double}

theorem run_readable {code : List Nat} (h : source s r.file = .ok (.ok code)) (e : Engine Double)
    (t : Terminal σ) : run plane s c e r t = runSource plane c e r code t := lift_bind h _ t

variable (plane) in
theorem run_unsubmitted {out : Except Config.Fault Nat} (hc : c.Typed) (h : Unsubmitted s c r out)
    (e : Engine Double) (t : Terminal σ) :
    (run plane s c e r t).1 = out ∧ (run plane s c e r t).2.site = t.site := by
  cases h with
  | unreadable h =>
    rw [run, lift_bind_error h]
    exact ⟨rfl, rfl⟩
  | unopened h =>
    rw [run, lift_bind h]
    exact ⟨rfl, rfl⟩
  | unencoded hcode h =>
    rw [run_readable hcode, runSource, lift_bind_error h]
    exact ⟨rfl, rfl⟩
  | tooLarge hcode hdata h =>
    obtain ⟨text, hlimit⟩ := hc.maxCodeSize.display
    rw [run_readable hcode, runSource, lift_bind hdata, lift_bind (used_eq_ok h), if_pos rfl,
      lift_bind (used_eq_ok hlimit)]
    exact ⟨rfl, rfl⟩
  | untimed hcode hdata hsize h =>
    rw [run_readable hcode, runSource, lift_bind hdata, lift_bind (used_eq_ok hsize), if_neg Bool.false_ne_true,
      lift_bind_error (used_eq_error h)]
    exact ⟨rfl, rfl⟩

variable (plane) in
theorem run_submitted {sub : Submission Double} (h : Submits s c r sub) (e : Engine Double) (t : Terminal σ) :
    let executed := e.execute plane (Runner.open plane e.settings) sub t.site
    (run plane s c e r t).1 =
        executed.1.bind (fun result => (Config.used (lastShown r result)).map fun _ => statusOf result) ∧
      (run plane s c e r t).2.site = executed.2 := by
  intro executed
  obtain ⟨hcode, hdata, hsize, htime⟩ := h
  rw [run_readable hcode, runSource, lift_bind hdata, lift_bind (used_eq_ok hsize), if_neg Bool.false_ne_true,
    lift_bind (used_eq_ok htime)]
  have hsite : onSite (e.execute plane (Runner.open plane e.settings) (submission r _ _)) t =
      (executed.1, { t with site := executed.2 }) := rfl
  rcases hexecuted : executed.1 with f | result <;> rw [hexecuted] at hsite
  · rw [Act.bind_error hsite]
    exact ⟨rfl, rfl⟩
  rw [Act.bind_ok hsite]
  show _ = (Config.used (lastShown r result)).map _ ∧ _
  unfold lastShown
  cases r.json with
  | true => rcases Shown.asJson result with _ | _ <;> exact ⟨rfl, rfl⟩
  | false => rcases Shown.usage result with _ | _ <;> exact ⟨rfl, rfl⟩

def opening (env : Env σ Double) : Terminal (Recorded σ Double) where
  site := { env := { env with world := ⟨env.world, []⟩ } }

def Executed (plane : ControlPlane σ Double) (s : Surroundings) (i : Invocation) (c : Config) (r : RunRequest)
    (t : Terminal σ) (sub : Submission Double) (result : ExecutionResult) : Prop :=
  ∃ e, c.engine = .ok e ∧ Submits s c r sub ∧
    (e.execute plane (Runner.open plane e.settings) sub (prepare i c (configuration s i t).2).2.site).1 = .ok result

inductive Breaks (plane : ControlPlane σ Double) (s : Surroundings) (i : Invocation) (c : Config) (r : RunRequest)
    (t : Terminal σ) : Config.Fault → Prop
  | unmade {m} (h : c.engine = .error m) : Breaks plane s i c r t m.failure
  | unsubmitted {e f} (he : c.engine = .ok e) (h : Unsubmitted s c r (.error f)) : Breaks plane s i c r t f
  | unshown {sub result m} (h : Executed plane s i c r t sub result) (hm : lastShown r result = .error m) :
    Breaks plane s i c r t m.failure

section

variable {settings : Settings Double} {x : Session (Recorded σ Double) Nat} {t : Terminal (Recorded σ Double)}
  {out : Except Config.Fault Nat} (debug : Bool)

omit [Clock σ Double] in
theorem report_site (f : Config.Fault) (t : Terminal σ) :
    ∃ log, (report f t).2.site = { t.site with env := { t.site.env with log } } := by
  unfold report
  cases f.isA .configuration <;> cases f.isA .playground <;> exact ⟨_, rfl⟩

omit [Clock σ Double] in
theorem ensured_calls (hs : (x t).2.site.holdings.Sound plane settings) :
    (x t).2.site.env.world.calls <+:
      ((x.rescue report).ensure (cleanUp plane.recorded debug) t).2.site.env.world.calls := by
  have hsite : ∃ log, (x.rescue report t).2.site =
      { (x t).2.site with env := { (x t).2.site.env with log } } := by
    unfold Act.rescue
    rcases x t with ⟨f | n, t₁⟩
    · exact report_site f t₁
    · exact ⟨_, rfl⟩
  obtain ⟨log, hsite⟩ := hsite
  have hworld : ((x.rescue report).ensure (cleanUp plane.recorded debug) t).2.site.env.world =
      (Engine.shutdown plane.recorded (x.rescue report t).2.site).2.env.world := by
    rw [Act.ensure_apply, (cleanUp_apply plane.recorded debug _).1]
  have hsound : (x.rescue report t).2.site.holdings.Sound plane settings := by
    rw [hsite]
    exact hs
  have hcalls : (x.rescue report t).2.site.env.world.calls = (x t).2.site.env.world.calls := by rw [hsite]
  obtain ⟨added, hc, _⟩ := Pool.shutdown_does hsound
  rw [hworld, ← hcalls]
  exact ⟨added, hc.symm⟩

omit [Clock σ Double] in
theorem ensured_apply (hs : (x t).2.site.holdings.Sound plane settings)
    (hout : ∀ f, (x t).1 = .error f → f.isA .playground = false ∧ f.isA .configuration = false)
    (hcivil : ∀ call ∈ ((x.rescue report).ensure (cleanUp plane.recorded debug) t).2.site.env.world.calls,
      call.Civil) :
    ((x.rescue report).ensure (cleanUp plane.recorded debug) t).1 = (x t).1 ∧
      ((x.rescue report).ensure (cleanUp plane.recorded debug) t).2.site.env.world =
        (Engine.shutdown plane.recorded (x t).2.site).2.env.world := by
  have hreported : x.rescue report t = x t := by
    unfold Act.rescue
    rcases h : x t with ⟨f | n, t₁⟩
    · rw [h] at hout
      exact report_foreign (hout f rfl) t₁
    · rfl
  obtain ⟨hworld, hclean⟩ := cleanUp_apply plane.recorded debug (x t).2
  have hensured : ((x.rescue report).ensure (cleanUp plane.recorded debug) t).2.site.env.world =
      (Engine.shutdown plane.recorded (x t).2.site).2.env.world := by
    rw [Act.ensure_apply, hreported, hworld]
  rw [hensured] at hcivil
  obtain ⟨added, hc, hfailed⟩ := Pool.shutdown_failed hs
  have hok := hclean fun f hf => by
    obtain ⟨call, hmem, hcall⟩ := hfailed f hf
    refine (hcivil call ?_).failure f hcall
    rw [show (Engine.shutdown plane.recorded (x t).2.site).2.env.world.calls = _ from hc]
    exact List.mem_append_right _ hmem
  refine ⟨?_, hensured⟩
  rw [Act.ensure_apply, hreported, hok]
  rfl

end

theorem engine_takes {e : Engine Double} (h : c.engine = .ok e) :
    e.settings.image = c.sandbox.image ∧
      e.settings.containerName = (if c.sandbox.containerName.truth then c.sandbox.containerName else .null) ∧
      e.defaultKey = c.sandbox.defaultSessionKey := by
  obtain ⟨settings, hsettings, h⟩ := Config.ok_of_bind h
  cases h
  obtain ⟨memoryLimit, -, h⟩ := Config.ok_of_bind hsettings
  obtain ⟨maxExecutionTime, -, h⟩ := Config.ok_of_bind h
  obtain ⟨controlTimeout, -, h⟩ := Config.ok_of_bind h
  obtain ⟨noiseMarkers, -, h⟩ := Config.ok_of_bind h
  cases h
  exact ⟨rfl, rfl, rfl⟩

omit [Clock σ Double] in
theorem legible_of_typed (hc : c.Typed) {e : Engine Double} (he : c.engine = .ok e)
    (hids : ∀ l spec env id, (plane.create l spec env).1 = .ok id → id.IsText) : plane.Legible e.settings := by
  obtain ⟨himage, hname, -⟩ := engine_takes he
  constructor
  · obtain ⟨image, h⟩ := hc.sandbox.image
    rw [himage, h]
    exact ⟨image, rfl⟩
  · intro l spec env id h
    obtain ⟨text, rfl⟩ := hids l spec env id h
    exact ⟨_, rfl⟩
  · intro ho
    rw [Settings.ownsEnvironment, hname] at ho
    rw [hname]
    rcases hc.sandbox.containerName with h | ⟨name, h⟩
    · rw [h] at ho
      cases ho
    · rw [h] at ho ⊢
      split at ho
      · rename_i htruth
        rw [if_pos htruth]
        exact ⟨⟨_, rfl⟩, name, rfl⟩
      · cases ho

theorem key_shown (hc : c.Typed) {e : Engine Double} (he : c.engine = .ok e) {sub : Submission Double}
    (h : Submits s c r sub) : ∃ text, (e.key sub).display = .ok text := by
  obtain ⟨-, -, hkey⟩ := engine_takes he
  obtain ⟨name, hname⟩ := hc.sandbox.defaultSessionKey
  obtain ⟨hcode, hdata, hsize, htime⟩ := h
  unfold Engine.key
  split
  · cases hs : r.session with
    | none =>
      rename_i htruth
      simp [submission, hs, Value.truth, Scalar.truth] at htruth
    | some text =>
      simp only [submission, hs]
      exact ⟨text, rfl⟩
  · rw [hkey, hname]
    exact ⟨name, rfl⟩

theorem Executed.unique {i : Invocation} {t : Terminal σ} {sub sub' : Submission Double}
    {result result' : ExecutionResult} (h : Executed plane s i c r t sub result)
    (h' : Executed plane s i c r t sub' result') : result = result' := by
  obtain ⟨e, he, hsub, hresult⟩ := h
  obtain ⟨e', he', hsub', hresult'⟩ := h'
  cases he.symm.trans he'
  obtain rfl := hsub.unique hsub'
  exact Except.ok.inj (hresult.symm.trans hresult')

variable (plane) in
theorem outcome_tells (hc : c.Typed) {e : Engine Double} (he : c.engine = .ok e) {i : Invocation} {t : Terminal σ}
    {out : Except Config.Fault Nat} (h : Unsubmitted s c r out ∨ ∃ sub result, Executed plane s i c r t sub result ∧
      out = (Config.used (lastShown r result)).map fun _ => statusOf result) :
    (∀ n, out = .ok n → (n = 0 ∨ n = 1 ∨ n = 2) ∧
      (n = 0 ↔ ∃ sub result, Executed plane s i c r t sub result ∧ result.success = true)) ∧
    ∀ f, out = .error f ↔ Breaks plane s i c r t f := by
  -- A run hands over nothing or executes one submission, never both.
  rcases h with h | ⟨sub, result, hexecuted, rfl⟩
  · have hnone {sub result} : ¬ Executed plane s i c r t sub result :=
      fun ⟨_, _, hsub, _⟩ => hsub.not_unsubmitted h
    constructor
    · rintro n rfl
      have hn : n = 1 ∨ n = 2 := by
        cases h
        · exact .inr rfl
        · exact .inl rfl
      refine ⟨.inr hn, fun hzero => ?_, fun ⟨_, _, hexecuted, _⟩ => absurd hexecuted hnone⟩
      omega
    · intro f
      constructor
      · rintro rfl
        exact .unsubmitted he h
      · rintro (hm | ⟨_, hf⟩ | ⟨hexecuted, _⟩)
        · cases he.symm.trans hm
        · rw [← (run_unsubmitted plane hc h e t).1, (run_unsubmitted plane hc hf e t).1]
        · exact absurd hexecuted hnone
  · have hsubmits : ∃ sub, Submits s c r sub := ⟨sub, hexecuted.choose_spec.2.1⟩
    constructor
    · intro n hn
      obtain rfl : statusOf result = n := by
        rcases hshown : lastShown r result with m | shown <;> rw [hshown] at hn <;> cases hn
        rfl
      have hzero : statusOf result = 0 ↔ result.success = true := by
        unfold statusOf exitOk exitFailed
        cases result.success <;> decide
      refine ⟨?_, hzero.trans ⟨fun h => ⟨sub, result, hexecuted, h⟩, ?_⟩⟩
      · unfold statusOf
        split
        · exact .inl rfl
        · exact .inr (.inl rfl)
      · rintro ⟨sub', result', hexecuted', h⟩
        rw [hexecuted.unique hexecuted']
        exact h
    · intro f
      constructor
      · intro hf
        rcases hshown : lastShown r result with m | shown <;> rw [hshown] at hf <;> cases hf
        exact .unshown hexecuted hshown
      · rintro (hm | ⟨_, hf⟩ | ⟨hexecuted', hm⟩)
        · cases he.symm.trans hm
        · exact absurd hf hsubmits.choose_spec.not_unsubmitted
        · rw [hexecuted.unique hexecuted', hm]
          rfl

theorem carried_cases (hc : c.Typed) {e : Engine Double} (he : c.engine = .ok e) (hp : plane.Legible e.settings)
    (hclock : ∀ w : σ, Measures σ (Clock.now w : Double)) {env : Env σ Double} {ready : Terminal (Recorded σ Double)}
    (hready : ready.site = history plane e.settings e env []) (debug : Bool)
    (hcivil : ∀ call ∈ (((run plane.recorded s c e r).rescue report).ensure
      (cleanUp plane.recorded debug) ready).2.site.env.world.calls, call.Civil) :
    let ended := ((run plane.recorded s c e r).rescue report).ensure (cleanUp plane.recorded debug) ready
    ((∃ out, Unsubmitted s c r out ∧ ended.1 = out) ∨ ∃ sub result, Submits s c r sub ∧
      (e.execute plane.recorded (Runner.open plane.recorded e.settings) sub ready.site).1 = .ok result ∧
        ended.1 = (Config.used (lastShown r result)).map fun _ => statusOf result) ∧
    ∃ ops, ended.2.site.env.world = (history plane e.settings e env (ops ++ [.shutdown])).env.world := by
  intro ended
  -- The shutdown at the end of a history is the one at the end of the run.
  have hends (ops : List (Operation σ Double))
      (hsite : (run plane.recorded s c e r ready).2.site = history plane e.settings e env ops)
      (hworld : ended.2.site.env.world =
        (Engine.shutdown plane.recorded (run plane.recorded s c e r ready).2.site).2.env.world) :
      ended.2.site.env.world = (history plane e.settings e env (ops ++ [.shutdown])).env.world := by
    rw [hworld, hsite, history, history, List.foldl_append]
    rfl
  rcases submits_or_unsubmitted hc s r with ⟨sub, hsub⟩ | ⟨out, hout⟩
  · obtain ⟨hrun, hsite⟩ := run_submitted plane.recorded hsub e ready
    have hdone : (run plane.recorded s c e r ready).2.site = history plane e.settings e env [.execute sub] := by
      rw [hsite, hready]
      rfl
    have hs : (run plane.recorded s c e r ready).2.site.holdings.Sound plane e.settings :=
      hdone ▸ history_sound hp env _
    obtain ⟨result, hresult⟩ := Engine.execute_returns hp (hready ▸ history_sound hp env [])
      ⟨key_shown hc he hsub, hclock ready.site.env.world.world⟩
      fun call hcall => hcivil call ((ensured_calls debug hs).subset (hsite ▸ hcall))
    rw [hresult] at hrun
    change _ = (Config.used (lastShown r result)).map _ at hrun
    have hforeign : ∀ f, (run plane.recorded s c e r ready).1 = .error f →
        f.isA .playground = false ∧ f.isA .configuration = false := by
      intro f hf
      rcases hshown : lastShown r result with m | shown <;> rw [hrun, hshown] at hf <;> cases hf
      exact misuse_foreign m
    obtain ⟨hended, hworld⟩ := ensured_apply debug hs hforeign hcivil
    exact ⟨.inr ⟨sub, result, hsub, hresult, hended.trans hrun⟩, _, hends _ hdone hworld⟩
  · obtain ⟨hrun, hsite⟩ := run_unsubmitted plane.recorded hc hout e ready
    have hdone : (run plane.recorded s c e r ready).2.site = history plane e.settings e env [] := hsite.trans hready
    have hforeign : ∀ f, (run plane.recorded s c e r ready).1 = .error f →
        f.isA .playground = false ∧ f.isA .configuration = false := by
      intro f hf
      exact (hrun.symm.trans hf ▸ hout).foreign
    obtain ⟨hended, hworld⟩ := ensured_apply debug (hdone ▸ history_sound hp env []) hforeign hcivil
    exact ⟨.inl ⟨out, hout, hended.trans hrun⟩, _, hends _ hdone hworld⟩

theorem carryOut_apply {e : Engine Double} (he : c.engine = .ok e) {i : Invocation} {t : Terminal σ}
    (hprepare : (prepare i c t).1 = .ok ()) : carryOut shell client plane s i c (.run r) t =
      ((run plane s c e r).rescue report).ensure (cleanUp plane i.debug) (prepare i c t).2 := by
  have hready : prepare i c t = (.ok (), (prepare i c t).2) := Prod.ext hprepare rfl
  rw [carryOut, Act.bind_ok hready, lift_bind (used_eq_ok he)]
  rfl

theorem carryOut_error {m : Misuse} (he : c.engine = .error m) {i : Invocation} {t : Terminal σ}
    (hprepare : (prepare i c t).1 = .ok ()) :
    carryOut shell client plane s i c (.run r) t = (.error m.failure, (prepare i c t).2) := by
  have hready : prepare i c t = (.ok (), (prepare i c t).2) := Prod.ext hprepare rfl
  rw [carryOut, Act.bind_ok hready, lift_bind_error (used_eq_error he)]

theorem invoke_apply {i : Invocation} {t : Terminal σ} (hload : (configuration s i t).1 = .ok c) :
    invoke shell client plane s i (.run r) t =
      carryOut shell client plane s i c (.run r) (configuration s i t).2 := by
  have houtcome : Act.outcome (configuration s i) t = (.ok (.ok c), (configuration s i t).2) := by
    rw [← hload]
    rfl
  exact Act.bind_ok houtcome

theorem start_apply {i : Invocation} (hparse : Invocation.parse s.words = .ok i)
    (htask : i.task = some (.run r)) (t : Terminal σ) : start shell client plane s t =
      ((invoke shell client plane s i (.run r) t).1.map .status, (invoke shell client plane s i (.run r) t).2) := by
  simp only [start, hparse, htask, Act.map_apply]

/-- A run ends with status 0, 1 or 2, and with 0 exactly if it handed a submission to the engine that
succeeded. It ends without a status exactly if its source is no text, its time limit is no number, a limit of
the configuration is beyond all numbers, or its result cannot be shown. Whichever way, every environment that
was made is removed before. -/
theorem run_ends (hclock : ∀ w : σ, Measures σ (Clock.now w : Double))
    (hids : ∀ l spec env id, (plane.create l spec env).1 = .ok id → id.IsText) {i : Invocation}
    (hparse : Invocation.parse s.words = .ok i) (htask : i.task = some (.run r)) (env : Env σ Double)
    (hload : (configuration s i (opening env)).1 = .ok c) (htyped : c.Typed)
    (hcivil : ∀ call ∈ (start shell client plane.recorded s (opening env)).2.site.env.world.calls, call.Civil) :
    let ended := start shell client plane.recorded s (opening env)
    (∀ ending, ended.1 = .ok ending → ∃ n, ending = .status n ∧ (n = 0 ∨ n = 1 ∨ n = 2) ∧
      (n = 0 ↔ ∃ sub result, Executed plane.recorded s i c r (opening env) sub result ∧ result.success = true)) ∧
    (∀ f, ended.1 = .error f ↔ Breaks plane.recorded s i c r (opening env) f) ∧
    ∀ id ∈ ended.2.site.env.world.calls.filterMap created?,
      id ∈ ended.2.site.env.world.calls.filterMap removed? := by
  intro ended
  obtain ⟨log, hloaded⟩ := configuration_site s i (opening env)
  obtain ⟨hprepare, tracer, hprepared⟩ := prepare_apply htyped i (configuration s i (opening env)).2
  have hended : ended = ((carryOut shell client plane.recorded s i c (.run r)
      (configuration s i (opening env)).2).1.map .status,
      (carryOut shell client plane.recorded s i c (.run r) (configuration s i (opening env)).2).2) := by
    rw [← invoke_apply hload, ← start_apply hparse htask]
  change ∀ call ∈ ended.2.site.env.world.calls, call.Civil at hcivil
  rcases he : c.engine with m | e
  · rw [hended, carryOut_error he hprepare]
    refine ⟨nofun, fun f => ?_, ?_⟩
    · constructor
      · rintro ⟨⟩
        exact .unmade he
      · rintro (h | ⟨h, _⟩ | ⟨⟨_, h, _⟩, _⟩)
        · cases he.symm.trans h
          rfl
        · cases he.symm.trans h
        · cases he.symm.trans h
    · dsimp only
      rw [hprepared, hloaded]
      exact List.forall_mem_nil _
  · have hp := legible_of_typed htyped he hids
    have hready : (prepare i c (configuration s i (opening env)).2).2.site =
        history plane e.settings e { env with log, tracer } [] := by
      rw [hprepared, hloaded]
      rfl
    rw [carryOut_apply he hprepare] at hended
    rw [hended] at hcivil
    obtain ⟨hcases, ops, hworld⟩ := carried_cases htyped he hp hclock hready i.debug hcivil
    obtain ⟨hstatus, hbreaks⟩ := outcome_tells plane.recorded (i := i) (t := opening env) htyped he
      (hcases.imp (fun ⟨_, h, hout⟩ => hout ▸ h)
        fun ⟨sub, result, hsub, hresult, hout⟩ => ⟨sub, result, ⟨e, he, hsub, hresult⟩, hout⟩)
    rw [hended]
    refine ⟨fun ending hending => ?_, fun f => ?_, ?_⟩
    · dsimp only at hending
      rcases hout : (((run plane.recorded s c e r).rescue report).ensure (cleanUp plane.recorded i.debug)
        (prepare i c (configuration s i (opening env)).2).2).1 with f | n <;> rw [hout] at hending <;> cases hending
      exact ⟨n, rfl, hstatus n hout⟩
    · rw [← hbreaks f]
      dsimp only
      rcases (((run plane.recorded s c e r).rescue report).ensure (cleanUp plane.recorded i.debug)
        (prepare i c (configuration s i (opening env)).2).2).1 with f' | n
      · simp [Except.map]
      · simp [Except.map]
    · intro id hid
      dsimp only at hid ⊢
      rw [hworld] at hid ⊢
      exact history_released hp e _ ops hid

end Program

namespace Script

def asked (content : List UInt8) : Surroundings where
  words := ["run", "prog.yz"]
  files := ({} : Tree).install ⟨"", ["prog.yz"]⟩ content
  environment := []
  input := .bytes []

def invocation : Invocation := { task := some (.run { file := ⟨"", ["prog.yz"]⟩ }) }

def ended (content : List UInt8) : Except Config.Fault Ending × Terminal (Recorded Script Double) :=
  Program.start .bare .unreachable plane.recorded (asked content) (Program.opening { world := {} })

end Script

namespace Program

theorem run_ends_succeeding : (Script.ended [109]).1 = .ok (.status 0) ∧
    (∃ sub result, Executed Script.plane.recorded (Script.asked [109]) Script.invocation {}
      { file := ⟨"", ["prog.yz"]⟩ } (opening { world := {} }) sub result ∧ result.success = true) ∧
    Script.environmentId 0 ∈ (Script.ended [109]).2.site.env.world.calls.filterMap removed? := by
  have hended : (Script.ended [109]).1 = .ok (.status 0) := by decide +kernel
  have hloaded : (configuration (Script.asked [109]) Script.invocation
      (opening (σ := Script) { world := {} })).1 = .ok {} := by decide +kernel
  have hanswers : ∀ call ∈ (Script.ended [109]).2.site.env.world.calls, call.isCivil = true := by decide +kernel
  have hmade : Script.environmentId 0 ∈ (Script.ended [109]).2.site.env.world.calls.filterMap created? := by
    decide +kernel
  unfold Script.ended at hended hanswers hmade ⊢
  obtain ⟨hstatus, -, hremoved⟩ := run_ends Script.measures (fun _ _ _ _ h => by cases h; exact ⟨_, rfl⟩)
    (i := Script.invocation) rfl rfl _ hloaded Config.typed_default
    fun call h => PlaneCall.civil_of_isCivil (hanswers call h)
  obtain ⟨n, hn, -, hzero⟩ := hstatus _ hended
  cases hn
  exact ⟨hended, hzero.mp rfl, hremoved _ hmade⟩

theorem run_raises_undecodable : (Script.ended [0xff]).1 = .error (.other .decoding none) := by decide +kernel

end Program

end Playpen
