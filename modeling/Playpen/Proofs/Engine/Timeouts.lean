import Playpen.Proofs.Engine.Answers
import Playpen.Proofs.Engine.Failures
import Playpen.Proofs.Engine.Submission
import Playpen.Proofs.Runner.Aborts

namespace Playpen

open PlaneCall (Only created?)

variable {ω τ : Type}

def PlaneCall.target? : PlaneCall τ → Option EnvironmentId
  | .inject _ id _ _ _ | .exec _ id _ _ => some id
  | _ => none

/-- Submissions are written to and run in environments that these calls made, or in the one that runners
with these settings attach to. -/
def StartsAfresh (settings : Settings τ) (calls : List (PlaneCall τ)) : Prop :=
  ∀ id ∈ calls.filterMap PlaneCall.target?, id ∈ calls.filterMap created? ∨
    settings.ownsEnvironment = false ∧ id = settings.containerName

theorem PlaneCall.op_of_target? {c : PlaneCall τ} {id : EnvironmentId} (h : c.target? = some id) :
    c.op = .inject ∨ c.op = .exec := by
  cases c <;> simp [target?, op] at h ⊢

theorem PlaneCall.Only.filterMap_target? {ops : List PlaneCall.Op} {calls : List (PlaneCall τ)}
    (h : Only ops calls) (hi : .inject ∉ ops) (hx : .exec ∉ ops) : calls.filterMap target? = [] := by
  rw [List.filterMap_eq_nil_iff]
  intro c hc
  rw [Option.eq_none_iff_forall_ne_some]
  intro id hid
  rcases op_of_target? hid with hop | hop
  · exact hi (hop ▸ h c hc)
  · exact hx (hop ▸ h c hc)

namespace Runner

variable {r r' : Runner τ} {added : List (PlaneCall τ)}

theorem Closes.escaping_iff {out : Except (Failure τ) Unit} (h : Closes r added r' out) (g : Failure τ) :
    out = .error g ∧ g.isA .playground = false ↔ Playpen.escaping added = some g := by
  cases h with
  | already => simp [Playpen.escaping, leftover]
  | bare =>
    cases out <;> simp [Playpen.escaping, leftover, Option.filter_eq_some_iff]
  | @removed id removal closing =>
    cases closing <;> cases removal <;>
      simp [Playpen.escaping, leftover, Except.bind, Option.filter_eq_some_iff]

theorem Opens.held {settings : Settings τ} {key : SessionKey} (h : Opens settings key added (.ok r)) :
    ∃ held, r.environment = some held ∧
      (held ∈ added.filterMap created? ∨ settings.ownsEnvironment = false ∧ held = settings.containerName) := by
  obtain ⟨link, more, rfl, hs⟩ := h.starts
  cases hs with
  | up hsome => cases hsome
  | @created made id _ _ hc =>
    cases hc
    exact ⟨id, rfl, .inl (by simp)⟩
  | attached _ ho => exact ⟨_, rfl, .inr ⟨ho, rfl⟩⟩

variable [Seconds τ] {l : Link} {id : EnvironmentId} {command : Command τ} {f : Failure τ}

theorem Attempts.timed_out {source : Raw} {out : Except (Failure τ) RunOutcome}
    (h : Attempts source r added r' out) (hm : .exec l id command (.error f) ∈ added)
    (ht : f.isA .timeout = true) :
    ∃ before user reply, added = before ++ [.exec l id command (.error f), .terminate l id user reply] ∧
      r'.suspect = true ∧ out = .error (aborted f reply) := by
  cases h with
  | undelivered hi => exact absurd hm (hi.only.not_mem (by simp [PlaneCall.op]))
  | ran hi hr =>
    have hm := (List.mem_append.mp hm).resolve_left (hi.only.not_mem (by simp [PlaneCall.op]))
    obtain ⟨before, reply, rfl, _, _, hs, hout⟩ := hr.timed_out hm ht
    exact ⟨_, _, reply, (List.append_assoc _ _ _).symm, hs, hout⟩

theorem Injects.targets {source : Raw} {held : EnvironmentId} {out : Except (Failure τ) Unit}
    (h : Injects source r added r' out) (he : r.environment = some held) :
    ∀ id ∈ added.filterMap PlaneCall.target?, id = held := by
  cases h with
  | down hq | unpacked hq => simp [hq.only.filterMap_target? (by simp) (by simp)]
  | delivered hq =>
    obtain ⟨rfl, rfl⟩ := hq.of_some he
    simp [PlaneCall.target?]

theorem Execs.targets {used : EnvironmentId} {line : Command τ} {out : Except (Failure τ) Capture}
    (h : Execs r used line added r' out) : ∀ id ∈ added.filterMap PlaneCall.target?, id = used := by
  cases h <;> simp [PlaneCall.target?]

theorem Attempts.targets {source : Raw} {held : EnvironmentId} {out : Except (Failure τ) RunOutcome}
    (h : Attempts source r added r' out) (he : r.environment = some held) :
    ∀ id ∈ added.filterMap PlaneCall.target?, id = held ∨ id ∈ added.filterMap created? := by
  cases h with
  | undelivered hi => exact fun id hid => .inl (hi.targets he id hid)
  | @ran written r₁ more _ _ hi hr =>
    obtain ⟨_, dest, archive, hwritten, _, _, he₁, _⟩ := hi.delivered_of_ok
    have hsame : dest = held := hi.targets he dest (by simp [hwritten, PlaneCall.target?])
    subst hsame
    intro id hid
    rw [List.filterMap_append] at hid ⊢
    rcases List.mem_append.mp hid with hid | hid
    · exact .inl (hi.targets he id hid)
    · cases hr with
      | down hr | unready hr => simp [hr.only.filterMap_target? (by simp) (by simp)] at hid
      | @failed readied _ used _ ran _ _ hr hx | @finished readied _ used _ ran _ _ hr hx =>
        rw [List.filterMap_append, hr.only.filterMap_target? (by simp) (by simp), List.nil_append] at hid
        have hused := hx.targets id hid
        subst hused
        refine (hr.used he₁).imp (·.1) fun hmade => ?_
        rw [List.filterMap_append]
        exact List.mem_append_right _ (List.mem_append_left _ hmade.1)

end Runner

theorem Holdings.Releases.only {key : SessionKey} {h h' : Holdings τ} {added : List (PlaneCall τ)}
    {out : Except (Failure τ) Unit} (hr : h.Releases key added h' out) : Only [.remove, .close] added := by
  cases hr with
  | absent => exact .nil _
  | released _ _ hc => exact hc.only

theorem Holdings.Releases.lookUp {key : SessionKey} {h h' : Holdings τ} {added : List (PlaneCall τ)}
    {out : Except (Failure τ) Unit} (hr : h.Releases key added h' out) : key.lookUp h'.registry = none := by
  rw [hr.registry]
  exact Value.lookUp_filter_self

theorem Holdings.Releases.escaping_iff {key : SessionKey} {h h' : Holdings τ} {added : List (PlaneCall τ)}
    {out : Except (Failure τ) Unit} (hr : h.Releases key added h' out) (hd : ∃ t, key.display = .ok t)
    (g : Failure τ) : out = .error g ∧ g.isA .playground = false ↔ escaping added = some g := by
  cases hr with
  | absent => simp [escaping, leftover]
  | released _ _ hc hreply =>
    rw [hreply hd]
    exact hc.escaping_iff g

theorem Holdings.Acquires.lookUp {settings : Settings τ} {key : SessionKey} {h h' : Holdings τ}
    {added : List (PlaneCall τ)} {i : Nat} (ha : h.Acquires settings key added h' (.ok i)) :
    key.lookUp h'.registry = some i := by
  cases ha with
  | found hl => exact hl
  | opened hl hk =>
    show key.lookUp (h.registry ++ [(key, h.runners.length)]) = _
    rw [Value.lookUp_append, hl]
    simp [Value.lookUp, Value.sameKey_self hk]

variable [Seconds τ]

theorem Engine.report_timeout {seconds : τ} {f : Failure τ} (h : f.isA .timeout = true) :
    Engine.report seconds f = s!"Execution timed out after {Seconds.general seconds} seconds" :=
  if_pos h

theorem Engine.report_foreign {seconds : τ} {g : Failure τ} (h : g.isA .playground = false) :
    Engine.report seconds g = Engine.internal := by
  have ht : g.isA .timeout = false := Bool.eq_false_iff.mpr fun ht =>
    Bool.false_ne_true (h.symm.trans (Failure.isA_playground (.inr rfl) ht))
  unfold Engine.report
  rw [ht, if_neg Bool.false_ne_true]
  cases g with
  | other => rfl
  | _ => simp [Failure.isA, Failure.kind, Kind.isA, Kind.lineage] at h

/-- What a timeout comes to, by how the abort ends and by the calls that give up the session. -/
inductive Engine.TimesOut (e : Engine τ) (sub : Submission τ) (registry : List (SessionKey × Nat)) :
    Except (Failure τ) Unit → List (PlaneCall τ) → Except (Failure τ) ExecutionResult → Prop
  | told {reply after} (hr : ∀ g, reply = .error g → g.isA .playground = true) (hn : escaping after = none)
      (hk : if e.recycleOnTimeout then (e.key sub).lookUp registry = none else after = []) (ms) :
      TimesOut e sub registry reply after (.ok
        { success := false
          error := s!"Execution timed out after {Seconds.general (e.seconds sub.timeout)} seconds"
          milliseconds := ms })
  | escaped {reply after g} (hr : ∀ g, reply = .error g → g.isA .playground = true)
      (hg : escaping after = some g) (hy : e.recycleOnTimeout = true)
      (hk : (e.key sub).lookUp registry = none) : TimesOut e sub registry reply after (.error g)
  | replaced {g} (hg : g.isA .playground = false) (hk : (e.key sub).lookUp registry ≠ none) (ms) :
      TimesOut e sub registry (.error g) []
        (.ok { success := false, error := Engine.internal, milliseconds := ms })

theorem Holdings.Answers.timed_out {e : Engine τ} {sub : Submission τ} {i : Nat} {h h' : Holdings τ}
    {added : List (PlaneCall τ)} {out : Except (Failure τ) ExecutionResult}
    (ha : h.Answers e sub i added h' out) (hk : (e.key sub).lookUp h.registry ≠ none)
    (hd : ∃ t, (e.key sub).display = .ok t) {l : Link} {id : EnvironmentId} {command : Command τ}
    {f : Failure τ} (hm : .exec l id command (.error f) ∈ added) (ht : f.isA .timeout = true) :
    ∃ before user reply after,
      added = before ++ .exec l id command (.error f) :: .terminate l id user reply :: after ∧
        e.TimesOut sub h'.registry reply after out := by
  cases ha with
  | @kept r _ r' g ms hr hatt hn =>
    obtain ⟨before, user, reply, rfl, hsus, hg⟩ := hatt.timed_out hm ht
    obtain rfl := Except.error.inj hg
    refine ⟨before, user, reply, [], rfl, ?_⟩
    by_cases hown : ∀ g, reply = .error g → g.isA .playground = true
    · rw [Runner.aborted_eq hown] at hn ⊢
      rw [Engine.refusal, Engine.report_timeout ht]
      exact .told hown rfl (by rw [if_neg fun hy => hn ⟨ht, hy, hsus⟩]) ms
    · obtain ⟨g, rfl, hforeign⟩ : ∃ g, reply = .error g ∧ g.isA .playground = false := by simpa using hown
      rw [Runner.aborted_foreign hforeign, Engine.refusal, Engine.report_foreign hforeign]
      exact .replaced hforeign hk ms
  | @recycled r tried r' g more _ reply' out hr hatt htg hy hsus hl hok herror =>
    have hm := (List.mem_append.mp hm).resolve_right (hl.only.not_mem (by simp [PlaneCall.op]))
    obtain ⟨before, user, reply, rfl, _, hg⟩ := hatt.timed_out hm ht
    obtain rfl := Except.error.inj hg
    -- A failure that is not the sandbox's own is no timeout, and would not have led here.
    have hown : ∀ g, reply = .error g → g.isA .playground = true := by
      rintro g rfl
      cases hforeign : g.isA .playground with
      | true => rfl
      | false =>
        rw [Runner.aborted_foreign hforeign] at htg
        exact hforeign.symm.trans (Failure.isA_playground (.inr rfl) htg)
    rw [Runner.aborted_eq hown] at hok
    have hescape : ∀ g, out = .error g ↔ escaping more = some g :=
      fun g => (herror g).trans (hl.escaping_iff hd g)
    refine ⟨before, user, reply, more, by simp, ?_⟩
    cases out with
    | error g => exact .escaped hown ((hescape g).mp rfl) hy hl.lookUp
    | ok res =>
      obtain ⟨ms, rfl⟩ := hok res rfl
      have hnone : escaping more = none := by
        rw [Option.eq_none_iff_forall_ne_some]
        exact fun g hg => by cases (hescape g).mpr hg
      rw [Engine.refusal, Engine.report_timeout ht]
      exact .told hown hnone (by rw [if_pos hy]; exact hl.lookUp) ms
  | ran hr hatt hm' =>
    have hm := (List.mem_append.mp hm).resolve_right (hm'.not_mem (by simp [PlaneCall.op]))
    obtain ⟨_, _, _, _, _, hg⟩ := hatt.timed_out hm ht
    cases hg

variable [Clock ω τ] {plane : ControlPlane ω τ} {settings : Settings τ}

theorem execute_afresh {s : Site (Recorded ω τ) τ} (hp : plane.Legible settings)
    (hs : s.holdings.Sound plane settings) (e : Engine τ) (sub : Submission τ)
    (hl : (e.key sub).lookUp s.registry = none) :
    ∃ added, (e.execute plane.recorded (Runner.open plane.recorded settings) sub s).2.env.world.calls =
      s.env.world.calls ++ added ∧ StartsAfresh settings added := by
  obtain ⟨first, hfirst, ha, ⟨hc, _⟩ | ⟨i, rest, hi, hc, hproceeds⟩⟩ := Engine.execute_cases hp hs e sub
  · refine ⟨first, hc.trans hfirst, ?_⟩
    simp [StartsAfresh, ha.only.filterMap_target? (by simp) (by simp)]
  rw [hi] at ha
  refine ⟨first ++ rest, by rw [hc, hfirst, List.append_assoc], ?_⟩
  obtain ⟨r, r', tried, last, result, hr, hatt, rfl, hlast⟩ := hproceeds.attempt
  generalize hreply : Except.ok i = reply at ha
  generalize (Engine.acquire (Runner.open plane.recorded settings) (e.key sub) s).2.holdings = h₁ at ha hr
  cases ha with
  | found hfound => cases hl.symm.trans hfound
  | refused | unopened => cases hreply
  | @opened _ q _ _ _ ho =>
    cases hreply
    obtain rfl : r = q := by simpa [Holdings.adopt] using hr.symm
    obtain ⟨held, he, hheld⟩ := ho.held
    intro id hid
    rw [List.filterMap_append, ho.only.filterMap_target? (by simp) (by simp), List.nil_append,
      List.filterMap_append, hlast.filterMap_target? (by simp) (by simp), List.append_nil] at hid
    rw [List.filterMap_append, List.filterMap_append]
    rcases hatt.targets he id hid with rfl | hmade
    · exact hheld.imp_left (List.mem_append_left _)
    · exact .inl (List.mem_append_right _ (List.mem_append_left _ hmade))

/-- An execution whose command times out kills the user's processes next. Its result tells of the timeout and
its session is given up, except when that abort or the calls that give up the session fail with something
that the sandbox does not know as its own. What comes next under a key that was given up starts afresh. -/
theorem execute_timed_out (hp : plane.Legible settings) (e : Engine τ) (env : Env ω τ)
    (ops : List (Operation ω τ)) (sub : Submission τ) (hd : ∃ t, (e.key sub).display = .ok t)
    (hclock : ∀ w : ω, Measures ω (Clock.now w : τ)) :
    let factory := Runner.open plane.recorded settings
    let s := history plane settings e env ops
    let run := e.execute plane.recorded factory sub s
    ∃ added, run.2.env.world.calls = s.env.world.calls ++ added ∧
      (∀ l id command f, .exec l id command (.error f) ∈ added → f.isA .timeout = true →
        ∃ before user reply after,
          added = before ++ .exec l id command (.error f) :: .terminate l id user reply :: after ∧
            e.TimesOut sub run.2.registry reply after run.1) ∧
      ((e.key sub).lookUp run.2.registry = none → ∀ next : Submission τ,
        (e.key next).sameKey (e.key sub) = true →
          ∃ more, (e.execute plane.recorded factory next run.2).2.env.world.calls =
            run.2.env.world.calls ++ more ∧ StartsAfresh settings more) := by
  intro factory s run
  have hs : s.holdings.Sound plane settings := history_sound hp env ops
  have hnext : (e.key sub).lookUp run.2.registry = none → ∀ next : Submission τ,
      (e.key next).sameKey (e.key sub) = true →
        ∃ more, (e.execute plane.recorded factory next run.2).2.env.world.calls =
          run.2.env.world.calls ++ more ∧ StartsAfresh settings more := by
    intro hnone next hsame
    have hafter : run.2.holdings.Sound plane settings := by
      have hsound := history_sound (e := e) hp env (ops ++ [.execute sub])
      rwa [history, List.foldl_append] at hsound
    refine execute_afresh hp hafter e next ?_
    rw [Value.lookUp_congr (Value.sameKey_iff.mp hsame).2]
    exact hnone
  obtain ⟨first, h, reply, ha, ⟨hc, _⟩ | ⟨i, rest, rfl, hc, hanswers⟩⟩ :=
    Engine.execute_answers hp hs e sub ⟨hd, hclock s.env.world.world⟩
  · refine ⟨first, hc, fun l id command f hm => ?_, hnext⟩
    exact absurd hm (ha.only.not_mem (by simp [PlaneCall.op]))
  refine ⟨first ++ rest, hc, fun l id command f hm ht => ?_, hnext⟩
  have hm := (List.mem_append.mp hm).resolve_left (ha.only.not_mem (by simp [PlaneCall.op]))
  have hk : (e.key sub).lookUp h.registry ≠ none := by
    rw [ha.lookUp]
    exact Option.some_ne_none i
  obtain ⟨before, user, reply, after, rfl, htimes⟩ := hanswers.timed_out hk hd hm ht
  exact ⟨first ++ before, user, reply, after, (List.append_assoc _ _ _).symm, htimes⟩

theorem execute_timed_out_stalled :
    let e := Script.engine true
    let s := Script.site e Script.stalled []
    let run := Script.execution e Script.stalled []
    (∃ added, run.2.env.world.calls = s.env.world.calls ++ added ∧
      ∃ l id command f before user reply after,
        added = before ++ .exec l id command (.error f) :: .terminate l id user reply :: after ∧
          e.TimesOut Script.submission run.2.registry reply after run.1) ∧
    (∃ more, (e.execute Script.plane.recorded (Runner.open Script.plane.recorded Script.settings)
        Script.submission run.2).2.env.world.calls = run.2.env.world.calls ++ more ∧
      StartsAfresh Script.settings more) ∧
    run.1 = .ok { success := false, error := "Execution timed out after 1 seconds" } := by
  have hresult : (Script.execution (Script.engine true) Script.stalled []).1 =
      .ok { success := false, error := "Execution timed out after 1 seconds" } := by
    decide +kernel
  have hexec : ∃ c ∈ (Script.execution (Script.engine true) Script.stalled []).2.env.world.calls.drop
      (Script.site (Script.engine true) Script.stalled []).env.world.calls.length,
      ∃ f ∈ c.broke?, f.isA .timeout = true := by
    decide +kernel
  have hregistry : ((Script.engine true).key Script.submission).lookUp
      (Script.execution (Script.engine true) Script.stalled []).2.registry = none := by
    decide +kernel
  have hkey : ((Script.engine true).key Script.submission).sameKey
      ((Script.engine true).key Script.submission) = true := by
    decide +kernel
  unfold Script.execution Script.site at *
  obtain ⟨added, hc, htimed, hnext⟩ := execute_timed_out Script.legible (Script.engine true)
    { world := Script.stalled } [] Script.submission ⟨"default", rfl⟩ Script.measures
  rw [hc, List.drop_left] at hexec
  obtain ⟨c, hm, f, hf, ht⟩ := hexec
  obtain ⟨l, id, command, rfl⟩ := PlaneCall.eq_of_broke? hf
  obtain ⟨before, user, reply, after, hadded, htimes⟩ := htimed l id command f hm ht
  exact ⟨⟨added, hc, l, id, command, f, before, user, reply, after, hadded, htimes⟩,
    hnext hregistry Script.submission hkey, hresult⟩

namespace Script

def aborting (reply : Except (Failure Double) Unit) : ControlPlane Script Double :=
  { Script.plane with terminate := fun _ _ _ => answer fun _ => reply }

end Script

theorem execute_timeout_lost : ¬ ∀ reply : Except (Failure Double) Unit,
    let e := Script.engine true
    let plane := (Script.aborting reply).recorded
    let s := history (Script.aborting reply) Script.settings e { world := Script.stalled } []
    let run := e.execute plane (Runner.open plane Script.settings) Script.submission s
    (∃ res, run.1 = .ok res ∧ res.error = "Execution timed out after 1 seconds") ∧
      (e.key Script.submission).lookUp run.2.registry = none := by
  intro h
  have hgone := (h (.error (.other .runtime (some "no such process")))).2
  revert hgone
  decide +kernel

end Playpen
