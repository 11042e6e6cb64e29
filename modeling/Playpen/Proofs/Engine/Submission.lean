import Playpen.Proofs.Engine.Ledger
import Playpen.Proofs.Plane.Scripted

namespace Playpen

open PlaneCall (created? Only)

variable {ω τ : Type}

def Submits [Seconds τ] (settings : Settings τ) (source : Raw) (suspect : Prop)
    (calls : List (PlaneCall τ)) : Prop :=
  ∃ before l written dest archive between used command reply after,
    calls = before ++ .inject l written dest archive (.ok ()) ::
      (between ++ .exec l used command reply :: after) ∧
    Runner.Packs settings source archive ∧
    (∀ c ∈ before ++ between ++ after, c.op ≠ .inject ∧ c.op ≠ .exec) ∧
    (used = written ↔ .isRunning l written (.ok false) ∉ between) ∧
    (used ≠ written → suspect)

namespace Runner

variable {r r' : Runner τ} {added : List (PlaneCall τ)}

variable [Seconds τ]

theorem Injects.delivered_of_ok {source : Raw} (h : Injects source r added r' (.ok ())) :
    ∃ first id archive, added = first ++ [.inject r.link id r.settings.workingDir archive (.ok ())] ∧
      Only [.create, .isRunning] first ∧ Packs r.settings source archive ∧
      r'.environment = some id ∧ r'.suspect = r.suspect := by
  cases h with
  | delivered hq ha => exact ⟨_, _, _, rfl, hq.only, ha, hq.environment, hq.suspect⟩

theorem Readies.used {id held : EnvironmentId} (h : Readies r added r' (.ok id))
    (he : r.environment = some held) :
    id = held ∧ .isRunning r.link held (.ok false) ∉ added ∨
      id ∈ added.filterMap created? ∧ .isRunning r.link held (.ok false) ∈ added ∧
        r.suspect = true ∧ r.owns = true := by
  cases h with
  | verified hv hq =>
    cases hv with
    | trusted =>
      obtain ⟨rfl, rfl⟩ := hq.of_some he
      exact .inl ⟨rfl, by simp⟩
    | alive hs he' =>
      obtain ⟨rfl, rfl⟩ := hq.of_some (r := { r with suspect := false }) he
      exact .inl ⟨rfl, by simp⟩
    | replaced hs he' ho _ hc =>
      obtain ⟨rfl, rfl⟩ := hq.of_some rfl
      obtain rfl := Option.some.inj (he.symm.trans he')
      cases hc
      exact .inr ⟨by simp [List.filterMap_cons], by simp, hs, ho⟩

theorem Attempts.exec_cases {source : Raw} {out : Except (Failure τ) RunOutcome}
    (h : Attempts source r added r' out) :
    Only [.create, .isRunning, .inject, .remove] added ∨
    ∃ r₁ first written dest archive between used command reply after,
      added = first ++ .inject r.link written dest archive (.ok ()) ::
        (between ++ .exec r.link used command reply :: after) ∧
      Only [.create, .isRunning] first ∧ Only [.isRunning, .remove, .create] between ∧
      Only [.terminate] after ∧ Packs r.settings source archive ∧
      Injects source r (first ++ [.inject r.link written dest archive (.ok ())]) r₁ (.ok ()) ∧
      r₁.environment = some written ∧
      (used = written ∧ .isRunning r.link written (.ok false) ∉ between ∨
        used ∈ between.filterMap created? ∧ .isRunning r.link written (.ok false) ∈ between ∧
          r.suspect = true ∧ r.owns = true) := by
  cases h with
  | undelivered hi => exact .inl (hi.only.mono (by simp))
  | @ran injected r₁ more r' out hi hr =>
    have hk := hi.keeps
    have idle : ∀ {readied : List (PlaneCall τ)}, Only [.isRunning, .remove, .create] readied →
        Only [.create, .isRunning, .inject, .remove] (injected ++ readied) := fun hr =>
      PlaneCall.only_append.mpr ⟨hi.only.mono (by simp), hr.mono (by simp)⟩
    obtain ⟨first, written, archive, hinj, hfirst, hpacks, he, hs⟩ := hi.delivered_of_ok
    cases hr with
    | down hready | unready hready => exact .inl (idle hready.only)
    | @failed between r₂ used command _ _ _ hready hx
    | @finished between r₂ used command _ _ _ hready hx =>
      obtain ⟨reply, after, rfl, hafter⟩ := hx.exec_first
      have hused := hready.used he
      rw [hk.link, hs] at hused
      refine .inr ⟨r₁, first, written, _, archive, between, used, command, reply, after, ?_, hfirst,
        hready.only, hafter, hpacks, hinj ▸ hi, he, hused.imp_right fun h => ⟨h.1, h.2.1, h.2.2.1, ?_⟩⟩
      · rw [hinj, hready.keeps.link, hk.link, List.append_assoc, List.singleton_append]
      · simpa [Runner.owns, hk.settings] using h.2.2.2

end Runner

theorem Holdings.Ledger.created_of_held {calls : List (PlaneCall τ)} {h : Holdings τ}
    (hl : h.Ledger calls) {i : Nat} {r : Runner τ} (hr : h.runners[i]? = some r) {id : EnvironmentId}
    (he : r.environment = some id) : id ∈ calls.filterMap created? := by
  have hm : id ∈ h.runners.flatMap (·.environment.toList) :=
    List.mem_flatMap.mpr ⟨r, List.mem_of_getElem? hr, by simp [he]⟩
  have hpos := List.count_pos_iff.mpr hm
  have hcount := hl.environments id
  exact List.count_pos_iff.mp (by omega)

theorem Holdings.Proceeds.attempt [Seconds τ] {orderly : Prop} {recycling : Bool} {source : Raw}
    {key : SessionKey} {i : Nat} {h h' : Holdings τ} {added : List (PlaneCall τ)}
    {out : Except (Failure τ) ExecutionResult}
    (hp : h.Proceeds orderly recycling source key i added h' out) :
    ∃ r r' tried last result, h.runners[i]? = some r ∧ r.Attempts source tried r' result ∧
      added = tried ++ last ∧ Only [.remove, .close, .memoryUsage] last := by
  cases hp with
  | failed hr ha | unmeasured hr ha => exact ⟨_, _, _, [], _, hr, ha, by simp, .nil _⟩
  | recycled hr ha _ _ _ hl =>
    refine ⟨_, _, _, _, _, hr, ha, rfl, ?_⟩
    cases hl with
    | absent => exact .nil _
    | released _ _ hc => exact hc.only.mono (by simp)
  | sampled hr ha hm | unsampled hr ha hm =>
    exact ⟨_, _, _, _, _, hr, ha, rfl, hm.only.mono (by simp)⟩

theorem Holdings.Acquires.only {settings : Settings τ} {key : SessionKey} {h h' : Holdings τ}
    {added : List (PlaneCall τ)} {out : Except (Failure τ) Nat}
    (ha : h.Acquires settings key added h' out) : Only [.connect, .create, .isRunning, .close] added := by
  cases ha with
  | found | refused => exact .nil _
  | unopened _ ho | opened _ _ _ ho => exact ho.only

theorem Holdings.Acquires.suspect {settings : Settings τ} {key : SessionKey} {h h' : Holdings τ}
    {added : List (PlaneCall τ)} {i : Nat} (ha : h.Acquires settings key added h' (.ok i))
    {r : Runner τ} (hr : h'.runners[i]? = some r) (hs : r.suspect = true) :
    key.lookUp h.registry = some i ∧ h.runners[i]? = some r := by
  cases ha with
  | found hl => exact ⟨hl, hr⟩
  | @opened _ q _ _ _ ho =>
    obtain ⟨link, more, _, hst⟩ := ho.starts
    obtain rfl : q = r := by simpa [Holdings.adopt] using hr
    simp [hst.suspect] at hs

variable [Seconds τ] {plane : ControlPlane ω τ} {settings : Settings τ}

theorem Holdings.Ledger.elsewhere {calls written : List (PlaneCall τ)} {h : Holdings τ}
    {k : SessionKey} {i : Nat} {r r' : Runner τ} {source : Raw} {id used : EnvironmentId}
    (hl : h.Ledger calls) (hs : h.Sound plane settings) (hown : settings.ownsEnvironment = true)
    (hm : (k, i) ∈ h.registry) (hr : h.runners[i]? = some r) (hi : r.Injects source written r' (.ok ()))
    (hid : r'.environment = some id) (after : List (PlaneCall τ))
    (hused : used ∈ after.filterMap created?)
    (hn : ((calls ++ written ++ after).filterMap created?).Nodup) : used ≠ id := by
  have hstep : h.Step settings written (h.put i r') := .acted hm hr (.inject hi)
  have hmade := (hstep.ledger hs hown hl).created_of_held (getElem?_put hr r') hid
  rw [List.filterMap_append] at hn
  rintro rfl
  exact (List.nodup_append.mp hn).2.2 _ hmade _ hused rfl

variable [Clock ω τ]

/-- A call that runs a command wrote its own submission first, once. The command runs in the environment
that the submission was written to, unless the runner was suspect and its environment is found to be
gone. -/
theorem execute_submits (hp : plane.Legible settings) (e : Engine τ) (env : Env ω τ)
    (ops : List (Operation ω τ)) (sub : Submission τ) :
    let s := history plane settings e env ops
    let run := (e.execute plane.recorded (Runner.open plane.recorded settings) sub s).2
    ∃ added, run.env.world.calls = s.env.world.calls ++ added ∧
      ((run.env.world.calls.filterMap created?).Nodup → (∀ c ∈ added, c.op ≠ .exec) ∨
        Submits settings sub.source (∃ i r, (e.key sub).lookUp s.registry = some i ∧
          s.runners[i]? = some r ∧ r.suspect = true) added) := by
  intro s run
  have hs : s.holdings.Sound plane settings := history_sound hp env ops
  obtain ⟨first, hfirst, ha, ⟨hc, _⟩ | ⟨i, rest, hi, hc, hproceeds⟩⟩ :=
    Engine.execute_cases (s := s) hp hs e sub
  · refine ⟨first, hc.trans hfirst, fun _ => .inl fun c hm hop => ?_⟩
    have := ha.only c hm
    simp [hop] at this
  rw [hi] at ha
  obtain ⟨k, hm⟩ := ha.registered
  have hsound := ha.sound hp hs
  obtain ⟨r, r', tried, last, result, hr, hatt, rfl, hlast⟩ := hproceeds.attempt
  obtain ⟨q, hq, _, hset, _⟩ := hsound.runner hm
  cases hr.symm.trans hq
  have hcalls : run.env.world.calls = s.env.world.calls ++ (first ++ (tried ++ last)) := by
    rw [← List.append_assoc, ← hfirst]
    exact hc
  refine ⟨_, hcalls, fun hn => ?_⟩
  rcases hatt.exec_cases with hidle |
    ⟨r₁, opening, written, dest, archive, between, used, command, reply, after, rfl, hopening, hbetween,
      hafter, hpacks, hinject, hid, hused⟩
  · refine .inl fun c hc hop => ?_
    simp only [List.mem_append] at hc
    rcases hc with hc | hc | hc
    · simpa [hop] using ha.only c hc
    · simpa [hop] using hidle c hc
    · simpa [hop] using hlast c hc
  refine .inr ⟨first ++ opening, r.link, written, dest, archive, between, used, command, reply,
    after ++ last, by simp, hset ▸ hpacks, fun c hc => ?_, ?_, fun hne => ?_⟩
  · have hquiet : Only [.connect, .create, .isRunning, .close, .remove, .terminate, .memoryUsage]
        (first ++ opening ++ between ++ (after ++ last)) := by
      simp only [PlaneCall.only_append]
      exact ⟨⟨⟨ha.only.mono (by simp), hopening.mono (by simp)⟩, hbetween.mono (by simp)⟩,
        hafter.mono (by simp), hlast.mono (by simp)⟩
    have := hquiet c hc
    constructor <;> rintro hop <;> simp [hop] at this
  · rcases hused with ⟨rfl, hno⟩ | ⟨hmade, hgone, _, ho⟩
    · simp [hno]
    · -- The environment in use was made after the one that was written to.
      have hown : settings.ownsEnvironment = true := by simpa [Runner.owns, hset] using ho
      have hl : (s.holdings.Ledger s.env.world.calls) := history_ledger hp hown e env ops
      have hne := ((Holdings.Step.acquired ha).ledger hs hown hl).elsewhere hsound hown hm hr hinject hid
        (between ++ .exec r.link used command reply :: (after ++ last))
        (List.filterMap_append ▸ List.mem_append_left _ hmade) (by simpa [hcalls] using hn)
      simp [hne, hgone]
  · obtain ⟨_, _, hsus, _⟩ := hused.resolve_left fun h => hne h.1
    obtain ⟨hlook, hr₀⟩ := ha.suspect hr hsus
    exact ⟨i, r, hlook, hr₀, hsus⟩

namespace Script

def aftermath : List (Operation Script Double) :=
  [.execute submission, .outside fun w => { w with running := false }]

end Script

theorem execute_submits_aftermath :
    let s := Script.site (Script.engine false) Script.stalled Script.aftermath
    let run := (Script.execution (Script.engine false) Script.stalled Script.aftermath).2
    ∃ added, run.env.world.calls = s.env.world.calls ++ added ∧
      Submits Script.settings Script.submission.source
        (∃ i r, ((Script.engine false).key Script.submission).lookUp s.registry = some i ∧
          s.runners[i]? = some r ∧ r.suspect = true) added := by
  have hruns : ∃ c ∈ (Script.execution (Script.engine false) Script.stalled
      Script.aftermath).2.env.world.calls.drop
        (Script.site (Script.engine false) Script.stalled Script.aftermath).env.world.calls.length,
      c.op = .exec := by
    decide +kernel
  unfold Script.execution Script.site at *
  obtain ⟨added, hc, h⟩ := execute_submits Script.legible (Script.engine false)
    { world := Script.stalled } Script.aftermath Script.submission
  rw [hc, List.drop_left] at hruns
  obtain ⟨c, hm, hop⟩ := hruns
  refine ⟨added, hc, (h ?_).resolve_left fun hno => hno c hm hop⟩
  decide +kernel

def PlaneCall.executed? : PlaneCall τ → Option EnvironmentId
  | .exec _ id _ _ => some id
  | _ => none

def PlaneCall.delivered? : PlaneCall τ → Option EnvironmentId
  | .inject _ id _ _ (.ok _) => some id
  | _ => none

theorem execute_misplaced : ¬ ∀ (w : Script) (ops : List (Operation Script Double)),
    let s := Script.site (Script.engine false) w ops
    let run := (Script.execution (Script.engine false) w ops).2
    let added := run.env.world.calls.drop s.env.world.calls.length
    added.filterMap PlaneCall.executed? ⊆ added.filterMap PlaneCall.delivered? := by
  intro h
  have hin := h Script.stalled Script.aftermath
    (show Script.environmentId 1 ∈ _ by decide +kernel)
  revert hin
  decide +kernel

end Playpen
