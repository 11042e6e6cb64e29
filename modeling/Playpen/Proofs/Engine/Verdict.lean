import Playpen.Proofs.Engine.Answers
import Playpen.Proofs.Engine.Invariant
import Playpen.Proofs.Output.Sections
import Playpen.Proofs.Plane.Scripted
import Playpen.Proofs.Runner.Verdict

namespace Playpen

open Act (Does)
open PlaneCall (captured?)
open Runner (Has)

variable {ω τ : Type}

structure ExecutionResult.Proper (sections : Bool) (res : ExecutionResult) : Prop where
  told : res.success = true ↔ res.error = ""
  refused : res.success = false → res.output = "" ∧ res.generatedCode = "" ∧ res.memoryUsed = 0
  shown : res.success = true → res.output ≠ ""
  unasked : sections = false → res.generatedCode = ""
  milliseconds : 0 ≤ res.milliseconds
  memoryUsed : 0 ≤ res.memoryUsed

theorem Act.ok_of_outcome {σ ε α : Type} {x : Act σ ε α} {s s' : σ} {a : α}
    (h : x.outcome s = (.ok (.ok a), s')) : x s = (.ok a, s') := by
  unfold Act.outcome at h
  simp only [Prod.mk.injEq, Except.ok.injEq] at h
  exact Prod.ext h.1 h.2

theorem Site.ok_of_withRunner {α : Type} {i : Nat} {x : RunnerAct ω τ α} {s s' : Site ω τ} {a : α}
    (h : Site.withRunner i x s = (.ok a, s')) : ∃ r seat, x ⟨r, s.env⟩ = (.ok a, seat) := by
  unfold Site.withRunner at h
  split at h
  · cases h
  · rename_i r hr
    exact ⟨r, _, Prod.ext (congrArg Prod.fst h :) rfl⟩

theorem Runner.memoryUsage_nonneg [Seconds τ] [Clock ω τ] {plane : ControlPlane ω τ}
    {s s' : Seat (Recorded ω τ) τ} {n : Int} (h : memoryUsage plane.recorded s = (.ok n, s')) : 0 ≤ n := by
  have hsample : Upholds (Has s.runner.settings) (fun _ => True) (memoryUsage plane.recorded) (0 ≤ ·) :=
    memoryUsage_upholds (plane.recorded_besides fun _ _ _ => trivial)
  obtain ⟨_, _, _, hn, _⟩ := hsample s rfl
  exact hn n (congrArg Prod.fst h)

theorem append_ne_empty {a : String} (h : a ≠ "") (b : String) : a ++ b ≠ "" :=
  fun hab => h (String.append_eq_empty_iff.mp hab).1

namespace Failure

theorem processDetail_ne_empty (code : Int) (output : String) : processDetail code output ≠ "" := by
  unfold processDetail
  dsimp only
  split
  · exact append_ne_empty (by decide) _
  · assumption

theorem memoryDetail_ne_empty (output : String) (limit : Int) : memoryDetail output limit ≠ "" :=
  append_ne_empty (append_ne_empty (by decide) _) _

theorem processDetail_trimmed {output : String} (h : Text.trim output = output) (hne : output ≠ "")
    (code : Int) : processDetail code output = output := by
  unfold processDetail
  dsimp only
  rw [h, if_neg hne]

theorem memoryDetail_trimmed {output : String} (h : Text.trim output = output) (hne : output ≠ "")
    (limit : Int) : memoryDetail output limit = memoryDetail "" limit ++ ("\n" ++ output) := by
  have hempty : memoryDetail "" limit = "Program was killed: memory limit exceeded" ++
      (if limit = 0 then "" else s!" ({limit.fdiv mebibyte} MB)") := String.append_empty
  rw [hempty]
  unfold memoryDetail
  dsimp only
  rw [h, if_neg hne]

end Failure

theorem Engine.refusal_error [Seconds τ] (seconds : τ) (f : Failure τ) (milliseconds : Int) :
    (refusal seconds f milliseconds).error = report seconds f := rfl

theorem Engine.report_process [Seconds τ] (seconds : τ) (code : Int) (output : String) :
    report seconds (.process code output) = Failure.processDetail code output :=
  if_neg Bool.false_ne_true

theorem Engine.report_memoryLimit [Seconds τ] (seconds : τ) (code : Int) (output : String) (limit : Int) :
    report seconds (.memoryLimit code output limit) = Failure.memoryDetail output limit :=
  if_neg Bool.false_ne_true

namespace Settings

variable {settings : Settings τ} {sections : Bool} {capture : Capture}

theorem sanitized_ok {raw : Raw} {t : Sanitized} (h : settings.sanitized sections raw = .ok t) :
    t = sanitize settings.markers sections raw := by
  unfold sanitized at h
  split at h
  · cases h
  · exact (Except.ok.inj h).symm

theorem sanitized_trimmed {t : Sanitized} (h : settings.sanitized sections (.bytes capture.output) = .ok t)
    (hout : t.hasOutput = true) : Text.trim (String.ofList t.program) = String.ofList t.program := by
  rw [sanitized_ok h] at hout ⊢
  rw [Text.trim, String.toList_ofList, Sanitizer.trim_program _ _ hout]

theorem sanitized_ne_empty {t : Sanitized} (h : settings.sanitized sections (.bytes capture.output) = .ok t) :
    String.ofList t.program ≠ "" := by
  rw [sanitized_ok h, Ne, String.ofList_eq_empty_iff]
  exact Sanitizer.program_ne_nil _ _ _

theorem judged_ok {outcome : RunOutcome} (h : settings.judged sections capture = .ok outcome) :
    capture.exitCode = 0 ∧ ∃ t, settings.sanitized sections (.bytes capture.output) = .ok t ∧
      outcome.output = String.ofList t.program ∧ outcome.generatedCode = String.ofList t.generated := by
  unfold judged at h
  split at h
  · cases h
  · rename_i t ht
    obtain ⟨hzero, rfl⟩ := Runner.classify_ok h
    exact ⟨hzero, t, ht, rfl, rfl⟩

theorem judged_output_ne_empty {outcome : RunOutcome} (h : settings.judged sections capture = .ok outcome) :
    outcome.output ≠ "" := by
  obtain ⟨_, t, ht, hout, _⟩ := judged_ok h
  rw [hout]
  exact sanitized_ne_empty ht

/-- What an answer says about a command that ended: for the code 0 what it wrote, for others what it wrote as
the error, or a text for the code. If that cannot be told, the error says nothing about it. -/
def Tells (settings : Settings τ) (sections : Bool) (capture : Capture) (res : ExecutionResult) : Prop :=
  match settings.sanitized sections (.bytes capture.output) with
  | .error _ => res.success = false ∧ res.error = Engine.internal
  | .ok t =>
    let program := String.ofList t.program
    (res.success = true ↔ capture.exitCode = 0) ∧
    (capture.exitCode = 0 → res.output = program ∧ res.generatedCode = String.ofList t.generated) ∧
    (capture.exitCode ≠ 0 → capture.exitCode ≠ 137 →
      res.error = if t.hasOutput then program else s!"process exited with status {capture.exitCode}") ∧
    (capture.exitCode = 137 →
      res.error = if Scalar.isWritable (settings.memoryLimit.fdiv Failure.mebibyte) then
        Failure.memoryDetail "" settings.memoryLimit ++ (if t.hasOutput then "\n" ++ program else "")
      else Engine.internal)

theorem shown_proper {outcome : RunOutcome}
    (h : settings.judged sections capture = .ok outcome) {milliseconds memoryUsed : Int}
    (hms : 0 ≤ milliseconds) (hmem : 0 ≤ memoryUsed) :
    ExecutionResult.Proper sections
      { success := true
        output := outcome.output
        generatedCode := if sections then outcome.generatedCode else ""
        milliseconds
        memoryUsed } where
  told := iff_of_true rfl rfl
  refused := nofun
  shown _ := Settings.judged_output_ne_empty h
  unasked hs := if_neg (Bool.eq_false_iff.mp hs)
  milliseconds := hms
  memoryUsed := hmem

theorem tells_shown {outcome : RunOutcome} (h : settings.judged sections capture = .ok outcome)
    (milliseconds memoryUsed : Int) :
    settings.Tells sections capture
      { success := true
        output := outcome.output
        generatedCode := if sections then outcome.generatedCode else ""
        milliseconds
        memoryUsed } := by
  obtain ⟨hzero, t, ht, hout, hgen⟩ := judged_ok h
  unfold Tells
  rw [ht]
  refine ⟨iff_of_true rfl hzero, fun _ => ⟨hout, ?_⟩, fun h _ => absurd hzero h, fun h => ?_⟩
  · cases sections with
    | true => exact hgen
    | false =>
      rw [sanitized_ok ht, Sanitizer.generated_unasked]
      rfl
  · cases hzero.symm.trans h

variable [Seconds τ]

theorem tells_refusal {f : Failure τ} (h : settings.judged sections capture = .error f) (seconds : τ)
    (milliseconds : Int) : settings.Tells sections capture (Engine.refusal seconds f milliseconds) := by
  unfold judged at h
  unfold Tells
  cases ht : settings.sanitized sections (.bytes capture.output) with
  | error m =>
    rw [ht] at h
    cases h
    cases m <;> exact ⟨rfl, rfl⟩
  | ok t =>
    rw [ht] at h
    obtain ⟨hfailed, hprocess, hkilled⟩ := Runner.classify_error h
    refine ⟨iff_of_false nofun hfailed, fun hzero => absurd hzero hfailed, fun _ hn => ?_, fun hk => ?_⟩
    · rw [hprocess hn, Engine.refusal_error, Engine.report_process]
      cases hout : t.hasOutput with
      | false => rfl
      | true => exact Failure.processDetail_trimmed (sanitized_trimmed ht hout) (sanitized_ne_empty ht) _
    · rw [hkilled hk, Engine.refusal_error]
      split
      · rw [Engine.report_memoryLimit]
        cases hout : t.hasOutput with
        | false => exact String.append_empty.symm
        | true => exact Failure.memoryDetail_trimmed (sanitized_trimmed ht hout) (sanitized_ne_empty ht) _
      · rfl

end Settings

namespace Engine

def Told (settings : Settings τ) (sections : Bool) (added : List (PlaneCall τ))
    (res : ExecutionResult) : Prop :=
  added.filterMap captured? = [] ∧ res.success = false ∨
    ∃ capture, added.filterMap captured? = [capture] ∧ settings.Tells sections capture res

theorem Told.after {settings : Settings τ} {sections : Bool} {first more : List (PlaneCall τ)}
    {res : ExecutionResult} (h : Told settings sections more res)
    (hfirst : ∀ c ∈ first, captured? c = none) : Told settings sections (first ++ more) res := by
  unfold Told
  rw [List.filterMap_append, PlaneCall.captured_eq_nil hfirst, List.nil_append]
  exact h

variable [Seconds τ]

theorem report_ne_empty (seconds : τ) (f : Failure τ) : report seconds f ≠ "" := by
  unfold report
  split
  · exact append_ne_empty (append_ne_empty (by decide) _) _
  · cases f
    case process => exact Failure.processDetail_ne_empty _ _
    case memoryLimit => exact Failure.memoryDetail_ne_empty _ _
    all_goals exact of_decide_eq_true rfl

theorem refusal_proper {sections : Bool} (seconds : τ) (f : Failure τ) {milliseconds : Int}
    (h : 0 ≤ milliseconds) : (refusal seconds f milliseconds).Proper sections where
  told := iff_of_false nofun (report_ne_empty seconds f)
  refused _ := ⟨rfl, rfl, rfl⟩
  shown := nofun
  unasked _ := rfl
  milliseconds := h
  memoryUsed := Int.le_refl 0

section

variable [Clock ω τ] {plane : ControlPlane ω τ} {e : Engine τ} {sub : Submission τ} {start deadline : τ}
  {i : Nat} {s s' : Site (Recorded ω τ) τ} {res : ExecutionResult}

theorem work_ok {out : Nat × RunOutcome × Int}
    (h : work plane.recorded sub start deadline i s = (.ok out, s')) :
    0 ≤ out.2.2 ∧ ∃ (settings : Settings τ) (capture : Capture),
      settings.judged sub.sections capture = .ok out.2.1 := by
  obtain ⟨_, _, _, h⟩ := Act.ok_of_bind h
  obtain ⟨outcome, s₁, hrun, h⟩ := Act.ok_of_bind h
  obtain ⟨ms, s₂, hms, h⟩ := Act.ok_of_bind h
  cases h
  obtain ⟨r, seat, hseat⟩ := Site.ok_of_withRunner hrun
  obtain ⟨added, hc, hr, hrules⟩ := Runner.run_judges plane (some deadline) ⟨r, _⟩ (rfl : Has r.settings r)
  rw [hseat] at hrules
  obtain ⟨_, f, ⟨⟩⟩ | ⟨capture, _, hjudged⟩ := hrules
  exact ⟨(elapsed_ok hms).1, r.settings, capture, hjudged.symm⟩

theorem proceed_ok (h : e.proceed plane.recorded sub start i s = (.ok res, s')) : res.Proper sub.sections := by
  obtain ⟨reply, s₁, hwork, h⟩ := Act.ok_of_bind h
  cases reply with
  | error f =>
    obtain ⟨⟨ms, hms, rfl⟩, _⟩ := resolve_ok h
    exact refusal_proper _ _ hms
  | ok out =>
    obtain ⟨n, _, hn, h⟩ := Act.ok_of_bind h
    obtain ⟨_, _, _, h⟩ := Act.ok_of_bind h
    cases h
    obtain ⟨hms, settings, capture, hjudged⟩ := work_ok (Act.ok_of_outcome hwork)
    obtain ⟨r, seat, hseat⟩ := Site.ok_of_withRunner hn
    exact Settings.shown_proper hjudged hms (Runner.memoryUsage_nonneg hseat)

theorem execute_ok {factory : RunnerFactory (Recorded ω τ) τ}
    (h : e.execute plane.recorded factory sub s = (.ok res, s')) : res.Proper sub.sections := by
  rw [execute_eq] at h
  split at h
  · exact proceed_ok h
  · obtain ⟨⟨ms, hms, rfl⟩, _⟩ := resolve_ok h
    exact refusal_proper _ _ hms

variable {settings : Settings τ}

def Rules (settings : Settings τ) (sections : Bool) (start now : τ) (added : List (PlaneCall τ))
    (out : Except (Failure τ) (Nat × RunOutcome × Int)) : Prop :=
  (∃ f, out = .error f ∧ added.filterMap captured? = []) ∨
  ∃ capture, added.filterMap captured? = [capture] ∧
    ((∃ f, out = .error f ∧ settings.judged sections capture = .error f) ∨
      (∃ f, out = .error f ∧ f.isA .timeout = false ∧ ∀ n, Seconds.millis (Seconds.sub now start) ≠ .ok n) ∨
      ∃ j outcome ms, out = .ok (j, outcome, ms) ∧ settings.judged sections capture = .ok outcome)

theorem work_rules (hs : ∀ r ∈ s.runners, Has settings r) :
    Does (work plane.recorded sub start deadline i) s fun out added s' =>
      (∀ r ∈ s'.runners, Has settings r) ∧
        Rules settings sub.sections start (Clock.now s'.env.world.world) added out := by
  have hinject : Runner.Upholds (Has settings) (captured? · = none)
      (Runner.inject plane.recorded sub.source) fun _ => True :=
    Runner.inject_upholds (plane.recorded_besides PlaneCall.captured?_eq_none) _
  refine .bind (Site.Upholds.withRunner i hinject s hs) ?_ ?_
  · rintro _ added s₁ ⟨hs₁, _, hadded⟩
    have hfirst (more : List (PlaneCall τ)) :
        (added ++ more).filterMap captured? = more.filterMap captured? := by
      rw [List.filterMap_append, PlaneCall.captured_eq_nil hadded, List.nil_append]
    refine .bind (Site.does_onRunner i (Runner.run_judges plane (some deadline)) ?_ hs₁) ?_ ?_
    · exact .inl ⟨rfl, _, rfl⟩
    · rintro outcome more s₂ ⟨hs₂, ⟨_, f, ⟨⟩⟩ | ⟨capture, hmore, hjudged⟩⟩
      have hcaptured := (hfirst more).trans hmore
      obtain ⟨n, _, hok⟩ | ⟨m, hm, herror⟩ := elapsed_apply start s₂
      · refine .step hok rfl (.pure ?_)
        rw [List.append_nil]
        exact ⟨hs₂, .inr ⟨capture, hcaptured, .inr (.inr ⟨i, outcome, _, rfl, hjudged.symm⟩)⟩⟩
      · refine .stop herror rfl ?_
        rw [List.append_nil]
        refine ⟨hs₂, .inr ⟨capture, hcaptured, .inr (.inl ⟨m.failure, rfl, ?_, fun n hn => ?_⟩)⟩⟩
        · cases m <;> rfl
        · cases hm.symm.trans hn
    · rintro f more s₂ ⟨hs₂, ⟨hmore, _⟩ | ⟨capture, hmore, hjudged⟩⟩
      · exact ⟨hs₂, .inl ⟨f, rfl, (hfirst more).trans hmore⟩⟩
      · exact ⟨hs₂, .inr ⟨capture, (hfirst more).trans hmore, .inl ⟨f, rfl, hjudged.symm⟩⟩⟩
  · rintro f added s₁ ⟨hs₁, _, hadded⟩
    exact ⟨hs₁, .inl ⟨f, rfl, PlaneCall.captured_eq_nil hadded⟩⟩

theorem resolve_silent (hs : ∀ r ∈ s.runners, Has settings r) (key : SessionKey) (seconds : τ)
    (runner : Option Nat) (f : Failure τ) :
    Does (e.resolve plane.recorded key seconds start runner f) s fun out added _ =>
      added.filterMap captured? = [] ∧ ∀ res, out = .ok res → (∃ ms, res = refusal seconds f ms) ∧
        (f.isA .timeout = false →
          ∃ n, Seconds.millis (Seconds.sub (Clock.now s.env.world.world) start) = .ok n) := by
  have hclose : Runner.Upholds (Has settings) (captured? · = none) (Runner.close plane.recorded)
      fun _ => True :=
    Runner.close_upholds (plane.recorded_besides PlaneCall.captured?_eq_none)
  obtain ⟨added, hc, _, _, hadded⟩ := resolve_upholds hclose e key seconds start runner f s hs
  refine ⟨added, hc, PlaneCall.captured_eq_nil hadded, fun res hres => ?_⟩
  obtain ⟨⟨ms, _, hrefusal⟩, hmeasured⟩ := resolve_ok (Prod.ext hres rfl)
  exact ⟨⟨ms, hrefusal⟩, hmeasured⟩

theorem proceed_tells (hs : ∀ r ∈ s.runners, Has settings r) :
    Does (e.proceed plane.recorded sub start i) s fun out added _ =>
      ∀ res, out = .ok res → Told settings sub.sections added res := by
  refine .bind_of_ok (.outcome (work_rules hs)) ?_
  rintro reply added s₁ ⟨hs₁, hrules⟩
  cases reply with
  | error f =>
    refine (resolve_silent hs₁ (e.key sub) (e.seconds sub.timeout) (some i) f).mono ?_
    rintro out more _ ⟨hmore, hout⟩ res hres
    obtain ⟨⟨ms, rfl⟩, hmeasured⟩ := hout res hres
    have hlast : (added ++ more).filterMap captured? = added.filterMap captured? := by
      rw [List.filterMap_append, hmore, List.append_nil]
    unfold Told
    rw [hlast]
    obtain ⟨_, _, hnone⟩ |
      ⟨capture, hcaptured, ⟨_, ⟨⟩, hjudged⟩ | ⟨_, ⟨⟩, ht, hn⟩ | ⟨_, _, _, ⟨⟩, _⟩⟩ := hrules
    · exact .inl ⟨hnone, rfl⟩
    · exact .inr ⟨capture, hcaptured, Settings.tells_refusal hjudged _ ms⟩
    -- The answer to a failure of the clock takes the time as well, so there is none.
    · obtain ⟨n, hn'⟩ := hmeasured ht
      exact absurd hn' (hn n)
  | ok out =>
    obtain ⟨_, ⟨⟩, _⟩ |
      ⟨capture, hcaptured, ⟨_, ⟨⟩, _⟩ | ⟨_, ⟨⟩, _⟩ | ⟨j, outcome, ms, ⟨⟩, hjudged⟩⟩ := hrules
    have hsample : Runner.Upholds (Has settings) (captured? · = none)
        (Runner.memoryUsage plane.recorded) (0 ≤ ·) :=
      Runner.memoryUsage_upholds (plane.recorded_besides PlaneCall.captured?_eq_none)
    refine .bind (Site.Upholds.withRunner j hsample s₁ hs₁) ?_ ?_
    · rintro n more s₂ ⟨hs₂, _, hmore⟩
      refine .bind (Site.Upholds.noteOf .debug (e.key sub) _ s₂ hs₂ (Q := fun c => captured? c = none)) ?_ ?_
      · rintro _ last s₃ ⟨_, _, hlast⟩
        refine .pure fun res hres => .inr ⟨capture, ?_, ?_⟩
        · simp only [List.filterMap_append, hcaptured, PlaneCall.captured_eq_nil hmore,
            PlaneCall.captured_eq_nil hlast, List.append_nil]
        · cases hres
          exact Settings.tells_shown hjudged ms n
      · exact fun _ _ _ _ => nofun
    · exact fun _ _ _ _ => nofun

variable (plane e sub) in
theorem execute_told (hs : ∀ r ∈ s.runners, Has settings r) :
    Does (e.execute plane.recorded (Runner.open plane.recorded settings) sub) s fun out added _ =>
      ∀ res, out = .ok res → Told settings sub.sections added res := by
  have hacquire : Site.Upholds (Has settings) (captured? · = none)
      (acquire (Runner.open plane.recorded settings) (e.key sub)) fun _ => True :=
    acquire_upholds (fun key =>
      Runner.open_upholds (plane.recorded_besides PlaneCall.captured?_eq_none) key fun _ => rfl) _
  obtain ⟨first, hfirst, hs₁, _, hsilent⟩ := hacquire s hs
  have hexecute := execute_eq plane.recorded (Runner.open plane.recorded settings) e sub s
  rcases hacq : acquire (Runner.open plane.recorded settings) (e.key sub) s with ⟨f | i, s₁⟩
  all_goals rw [hacq] at hexecute hfirst hs₁
  · refine .later hexecute hfirst ((resolve_silent hs₁ _ _ none f).mono ?_)
    rintro out more _ ⟨hmore, hout⟩ res hres
    obtain ⟨⟨ms, rfl⟩, _⟩ := hout res hres
    exact Told.after (.inl ⟨hmore, rfl⟩) hsilent
  · have hproceeds : e.execute plane.recorded (Runner.open plane.recorded settings) sub s =
        e.proceed plane.recorded sub (Clock.now s.env.world) i s₁ := hexecute
    refine .later hproceeds hfirst ((proceed_tells hs₁).mono ?_)
    exact fun _ _ _ htold res hres => (htold res hres).after hsilent

end

end Engine

open Engine (Told)

/-- A result tells an error or shows output. If a command ended, and the runners have the settings of the
pool, the result is what the settings make of its code and its output. -/
theorem execute_tells [Seconds τ] [Clock ω τ] (plane : ControlPlane ω τ) (settings : Settings τ) (e : Engine τ)
    (sub : Submission τ) {s s' : Site (Recorded ω τ) τ} {res : ExecutionResult}
    (h : e.execute plane.recorded (Runner.open plane.recorded settings) sub s = (.ok res, s')) :
    res.Proper sub.sections ∧ ((∀ r ∈ s.runners, Has settings r) →
      ∃ added, s'.env.world.calls = s.env.world.calls ++ added ∧ Told settings sub.sections added res) := by
  refine ⟨Engine.execute_ok h, fun hs => ?_⟩
  obtain ⟨added, hc, htold⟩ := Engine.execute_told plane e sub hs
  rw [h] at hc htold
  exact ⟨added, hc, htold res rfl⟩

theorem execute_tells_failing :
    let capture : Capture := ⟨3, Utf8.encodeString "oops\n"⟩
    let s : Site (Recorded Script Double) Double :=
      { env := { world := { world := { execs := [.ok capture] } } } }
    let run := (Script.engine true).execute Script.plane.recorded
      (Runner.open Script.plane.recorded Script.settings) Script.submission s
    let res : ExecutionResult := { success := false, error := "oops" }
    run.1 = .ok res ∧ run.2.env.world.calls.filterMap captured? = [capture] ∧ res.Proper false ∧
      (∀ r ∈ s.runners, Has Script.settings r) ∧
      ∃ added, run.2.env.world.calls = s.env.world.calls ++ added ∧ Told Script.settings false added res := by
  intro capture s run res
  have hres : run.1 = .ok res := by decide +kernel
  have hcaptured : run.2.env.world.calls.filterMap captured? = [capture] := by decide +kernel
  have hrunners : ∀ r ∈ s.runners, Has Script.settings r := List.forall_mem_nil _
  -- With its value at hand the run would be made again wherever it is compared.
  clear_value res
  obtain ⟨s', hrun⟩ : ∃ s', run = (.ok res, s') := ⟨run.2, by rw [← hres]⟩
  obtain ⟨hproper, htold⟩ :=
    execute_tells Script.plane Script.settings (Script.engine true) Script.submission hrun
  clear_value run
  subst hrun
  exact ⟨hres, hcaptured, hproper, hrunners, htold hrunners⟩

theorem execute_untold :
    let settings : Settings Double := { Script.settings with noiseMarkers := [.int 7] }
    let capture : Capture := ⟨0, Utf8.encodeString "hello\n"⟩
    let s : Site (Recorded Script Double) Double :=
      { env := { world := { world := { execs := [.ok capture] } } } }
    let run := (Script.engine true).execute Script.plane.recorded (Runner.open Script.plane.recorded settings)
      Script.submission s
    let res : ExecutionResult := { success := false, error := Engine.internal }
    run.1 = .ok res ∧ run.2.env.world.calls.filterMap captured? = [capture] ∧
      ¬ (res.success = true ↔ capture.exitCode = 0) := by
  decide +kernel

end Playpen
