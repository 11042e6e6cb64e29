import Playpen.Proofs.Engine.Likeness
import Playpen.Proofs.Plane.Scripted
/-!
What an execution does not depend on: the text that programs write leaves no trace but in the answer, and
the wording of the control plane's failures leaves none there.
-/
namespace Playpen

open Act (Agree InStep)
open Utf8 (Bytes)

variable {ω τ : Type} [Seconds τ] [Clock ω τ]

def TellsTime (R : ω → ω → Prop) : Prop :=
  ∀ w w', R w w' → (Clock.now w : τ) = Clock.now w' ∧ (Clock.wall w : τ) = Clock.wall w'

namespace Likeness

def ofOutput (W : Bytes → Bytes → Prop) (sections : Bool) (R : ω → ω → Prop) (hR : TellsTime R) :
    Likeness ω τ where
  world := R
  tracer := Eq
  failure := Eq
  heard level := Level.info.rank ≤ level.rank
  output := W
  admits s := s.Indifferent sections W
  now_eq h := (hR _ _ h).1
  wall_eq h := (hR _ _ h).2
  record name elapsed ht hu := by rw [ht, hu]
  same _ := rfl
  reworded h := h ▸ .refl _
  message h _ := by rw [h]
  debug := rfl

def ofWording (R : ω → ω → Prop) (hR : TellsTime R) : Likeness ω τ where
  world := R
  tracer t t' := t.enabled = t'.enabled ∧ t.timings = t'.timings
  failure := Failure.Reworded
  heard _ := false
  output := Eq
  admits _ := True
  now_eq h := (hR _ _ h).1
  wall_eq h := (hR _ _ h).2
  record {t t' u u'} name elapsed ht hu := by
    rw [ht.1]
    cases t'.enabled with
    | false => exact hu
    | true => exact ⟨hu.1, congrArg (Tracer.addSample name elapsed) hu.2⟩
  same := .refl
  reworded h := h
  message _ h := nomatch h
  debug := rfl

def ofTracing (I : ω → Prop) : Likeness ω τ where
  world w w' := w = w' ∧ I w
  tracer _ _ := True
  failure := Eq
  heard level := Level.info.rank ≤ level.rank
  output := Eq
  admits _ := True
  now_eq h := h.1 ▸ rfl
  wall_eq h := h.1 ▸ rfl
  record _ _ _ _ := trivial
  same _ := rfl
  reworded h := h ▸ .refl _
  message h _ := by rw [h]
  debug := rfl

end Likeness

def Site.over (s : Site ω τ) (w : ω) : Site (Recorded ω τ) τ where
  env := { s.env with world := ⟨w, []⟩ }
  runners := s.runners
  registry := s.registry
  guards := s.guards

theorem Likeness.Sites.over {L : Likeness ω τ} {s : Site ω τ} {w w' : ω} (hw : L.world w w')
    (ht : L.tracer s.env.tracer s.env.tracer) (hs : ∀ r ∈ s.runners, L.admits r.settings) :
    L.recorded.Sites (fun _ => True) (s.over w) (s.over w') :=
  ⟨rfl, hs, fun _ _ _ _ => trivial, rfl, rfl, ⟨hw, rfl⟩, ht, rfl, rfl⟩

variable {R : ω → ω → Prop} {hR : TellsTime R} {plane plane' : ControlPlane ω τ} {w w' : ω}

/-- Two control planes that answer alike except for what commands write, with the same exit code. If none of the
runners' markers makes the sanitizer fail on one side alone, both executions ask for the same, leave the same
runners and log the same from the level of information on, and they agree on success, time and memory. -/
theorem execute_output_inert {W : Bytes → Bytes → Prop} {sub : Submission τ}
    (hplane : plane.Alike (.ofOutput W sub.sections R hR) plane') (hw : R w w') {settings : Settings τ}
    (hm : settings.Indifferent sub.sections W) (e : Engine τ) {s : Site ω τ}
    (hs : ∀ r ∈ s.runners, r.settings.Indifferent sub.sections W) :
    let run := e.execute plane.recorded (Runner.open plane.recorded settings) sub (s.over w)
    let run' := e.execute plane'.recorded (Runner.open plane'.recorded settings) sub (s.over w')
    run.2.env.world.calls.map PlaneCall.request = run'.2.env.world.calls.map PlaneCall.request ∧
      R run.2.env.world.world run'.2.env.world.world ∧
      run.2.runners = run'.2.runners ∧ run.2.registry = run'.2.registry ∧ run.2.guards = run'.2.guards ∧
      Log.passing Level.info.rank run.2.env.log = Log.passing Level.info.rank run'.2.env.log ∧
      Agree Eq (fun r r' => r.success = r'.success ∧ r.milliseconds = r'.milliseconds ∧
        r.memoryUsed = r'.memoryUsed) run.1 run'.1 := by
  intro run run'
  have hreads : (Likeness.ofOutput W sub.sections R hR).recorded.Reads sub.sections := fun _ h => h
  obtain ⟨hout, hsite⟩ := Engine.execute_alike hplane.recorded (Runner.open_alike hplane.recorded hm) e sub hreads
    _ _ (.over hw rfl hs)
  obtain ⟨hworld, hcalls⟩ := hsite.env.world
  refine ⟨hcalls, hworld, hsite.runners, hsite.registry, hsite.guards, hsite.env.log, ?_⟩
  exact hout.mono (fun _ _ h => h) fun r r' h => ⟨h.success, h.milliseconds, h.memoryUsed⟩

namespace Script

def instead {α : Type} (f : Except (Failure Double) α → Except (Failure Double) α) (x : Effect Script Double α) :
    Effect Script Double α :=
  fun env => (f (x env).1, (x env).2)

def telling (write : Capture → Capture) (word : Failure Double → Failure Double) : ControlPlane Script Double where
  connect s := instead (.mapError word) (Script.plane.connect s)
  create l spec := instead (.mapError word) (Script.plane.create l spec)
  inject l id dest archive := instead (.mapError word) (Script.plane.inject l id dest archive)
  exec l id command := instead (fun r => (r.map write).mapError word) (Script.plane.exec l id command)
  terminate l id user := instead (.mapError word) (Script.plane.terminate l id user)
  isRunning l id := instead (.mapError word) (Script.plane.isRunning l id)
  memoryUsage l id := instead (.mapError word) (Script.plane.memoryUsage l id)
  remove l id := instead (.mapError word) (Script.plane.remove l id)
  close l := instead (.mapError word) (Script.plane.close l)

theorem tellsTime : TellsTime (τ := Double) (Eq : Script → Script → Prop) := by
  rintro w _ rfl
  exact ⟨rfl, rfl⟩

variable {L : Likeness Script Double} {α : Type} {V : α → α → Prop}

theorem inStep_instead (hL : L.world = Eq) {x : Effect Script Double α}
    {f : Except (Failure Double) α → Except (Failure Double) α}
    (hx : ∀ env, x env = ((x { world := env.world }).1, { env with world := (x { world := env.world }).2.world }))
    (hf : ∀ r, Agree L.failure V r (f r)) : InStep L.Envs L.failure V x (instead f x) := by
  intro env env' he
  have hw : env.world = env'.world := by
    have h := he.world
    rwa [hL] at h
  unfold instead
  rw [hx env, hx env', hw]
  exact ⟨hf _, by rw [hL], he.tracer, he.log, he.drawn⟩

theorem alike_telling (hL : L.world = Eq) {write : Capture → Capture} {word : Failure Double → Failure Double}
    (hwrite : ∀ c, L.Captures c (write c)) (hword : ∀ f, L.failure f (word f)) :
    Script.plane.Alike L (telling write word) := by
  have worded {α : Type} (r : Except (Failure Double) α) : Agree L.failure Eq r (r.mapError word) := by
    cases r with
    | ok _ => exact .ok rfl
    | error f => exact .error (hword f)
  have written (r : Except (Failure Double) Capture) :
      Agree L.failure L.Captures r ((r.map write).mapError word) := by
    cases r with
    | ok c => exact .ok (hwrite c)
    | error f => exact .error (hword f)
  constructor
  case exec => exact fun _ _ _ => inStep_instead hL (fun _ => rfl) written
  all_goals
    intros
    exact inStep_instead hL (fun _ => rfl) worded

theorem textualMarkers : settings.TextualMarkers := ⟨by decide, by decide, by decide⟩

def run (plane : ControlPlane Script Double) (w : Script) :
    Except (Failure Double) ExecutionResult × Site (Recorded Script Double) Double :=
  (engine true).execute plane.recorded (Runner.open plane.recorded settings) submission
    (Site.over { env := { world := w } } w)

end Script

theorem execute_output_inert_failing :
    let plane' := Script.telling (fun c => { c with output := [116, 119, 111] }) id
    let w : Script := { execs := [.ok ⟨3, [111, 110, 101]⟩] }
    let run := Script.run Script.plane w
    let run' := Script.run plane' w
    run.2.env.world.calls.map PlaneCall.request = run'.2.env.world.calls.map PlaneCall.request ∧
      Log.passing Level.info.rank run.2.env.log = Log.passing Level.info.rank run'.2.env.log ∧
      run.1 = .ok { success := false, error := "one" } ∧ run'.1 = .ok { success := false, error := "two" } := by
  unfold Script.run
  intro plane' w
  have hplane : Script.plane.Alike (.ofOutput (fun _ _ => True) false Eq Script.tellsTime) plane' :=
    Script.alike_telling rfl (fun _ => ⟨rfl, trivial⟩) fun _ => rfl
  have hs : ∀ r ∈ ({ env := { world := w } } : Site Script Double).runners,
      r.settings.Indifferent Script.submission.sections fun _ _ => True := nofun
  have h := execute_output_inert hplane (Eq.refl w) (Script.textualMarkers.indifferent _ _) (Script.engine true) hs
  refine ⟨h.1, h.2.2.2.2.2.1, ?_, ?_⟩
  · decide +kernel
  · decide +kernel

theorem execute_output_not_inert :
    let settings : Settings Double := { Script.settings with noiseMarkers := [.int 7] }
    let plane' := Script.telling (fun c => { c with output := Utf8.encodeString "hello\n" }) id
    let w : Script := { execs := [.ok ⟨0, []⟩] }
    let run (plane : ControlPlane Script Double) :=
      (Script.engine true).execute plane.recorded (Runner.open plane.recorded settings) Script.submission
        (Site.over { env := { world := w } } w)
    Script.plane.Alike (.ofOutput (fun _ _ => True) false Eq Script.tellsTime) plane' ∧
      (run Script.plane).1 = .ok { success := true, output := "Program executed successfully (no output)" } ∧
      (run plane').1 = .ok { success := false, error := Engine.internal } := by
  intro settings plane' w run
  refine ⟨Script.alike_telling rfl (fun _ => ⟨rfl, trivial⟩) fun _ => rfl, ?_, ?_⟩
  · decide +kernel
  · decide +kernel

/-- Two control planes that answer alike except for the wording of failures: both executions ask for the
same, leave the same runners, and answer the same, or neither of them answers. -/
theorem execute_wording_hidden (hplane : plane.Alike (.ofWording R hR) plane') (hw : R w w')
    (settings : Settings τ) (e : Engine τ) (sub : Submission τ) (s : Site ω τ) :
    let run := e.execute plane.recorded (Runner.open plane.recorded settings) sub (s.over w)
    let run' := e.execute plane'.recorded (Runner.open plane'.recorded settings) sub (s.over w')
    run.2.env.world.calls.map PlaneCall.request = run'.2.env.world.calls.map PlaneCall.request ∧
      R run.2.env.world.world run'.2.env.world.world ∧
      run.2.runners = run'.2.runners ∧ run.2.registry = run'.2.registry ∧ run.2.guards = run'.2.guards ∧
      Agree Failure.Reworded Eq run.1 run'.1 := by
  intro run run'
  have hsame : (Likeness.ofWording R hR).recorded.SameOutput := fun _ _ ho => ho
  obtain ⟨hout, hsite⟩ := Engine.execute_alike hplane.recorded
    (Runner.open_alike hplane.recorded trivial) e sub (hsame.reads _) _ _ (.over hw ⟨rfl, rfl⟩ fun _ _ => trivial)
  obtain ⟨hworld, hcalls⟩ := hsite.env.world
  refine ⟨hcalls, hworld, hsite.runners, hsite.registry, hsite.guards, ?_⟩
  exact hout.mono (fun _ _ h => h) fun r r' h => h.same hsame

theorem execute_wording_hidden_recycling :
    let word : Failure Double → Failure Double := fun
      | .controlPlane _ _ => .controlPlane "no such host" (some (.text "b"))
      | .timeout _ => .timeout (Double.ofInt 7)
      | f => f
    let plane' := Script.telling id word
    let w : Script := { Script.stalled with removal := .error (.controlPlane "busy" (some (.text "a"))) }
    let run := Script.run Script.plane w
    let run' := Script.run plane' w
    run.2.env.world.calls.map PlaneCall.request = run'.2.env.world.calls.map PlaneCall.request ∧
      Agree Failure.Reworded Eq run.1 run'.1 ∧
      run.1 = .ok { success := false, error := "Execution timed out after 1 seconds" } ∧
      run.2.env.log ≠ run'.2.env.log := by
  unfold Script.run
  intro word plane' w
  have hword : ∀ f : Failure Double, f.Reworded (word f) := by
    rintro (_ | _ | _ | _ | _ | _ | _ | _ | _) <;> constructor
  have hplane : Script.plane.Alike (.ofWording Eq Script.tellsTime) plane' :=
    Script.alike_telling rfl (fun _ => ⟨rfl, rfl⟩) hword
  have h := execute_wording_hidden hplane (Eq.refl w) Script.settings (Script.engine true)
    Script.submission { env := { world := w } }
  refine ⟨h.1, h.2.2.2.2.2, ?_, ?_⟩
  · decide +kernel
  · decide +kernel

end Playpen
