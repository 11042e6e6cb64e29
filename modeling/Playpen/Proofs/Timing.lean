import Playpen.Proofs.Number.Rational
import Playpen.Proofs.Plane.Recorded
/-!
The samples of timed blocks. Blocks stand in each other, time passes in them, tracing is switched on and off,
and exceptions leave several of them at once. What is kept under a name are the delays of the blocks of that
name that were entered with tracing on, in the order in which they were left.
-/
namespace Playpen

namespace Tracer

variable {τ : Type}

def addSamples (samples : List (String × τ)) (table : List (String × List τ)) : List (String × List τ) :=
  samples.foldl (fun table s => addSample s.1 s.2 table) table

def under (name : String) (samples : List (String × τ)) : List τ :=
  (samples.filter fun s => s.1 = name).map Prod.snd

theorem lookup_addSample (name other : String) (x : τ) (table : List (String × List τ)) :
    (addSample name x table).lookup other =
      if name = other then some ((table.lookup other).getD [] ++ [x]) else table.lookup other := by
  induction table with
  | nil =>
    by_cases h : name = other
    · subst h
      simp [addSample]
    · have hne : (other == name) = false := beq_false_of_ne (Ne.symm h)
      simp [addSample, List.lookup_cons, h, hne]
  | cons entry table ih =>
    obtain ⟨n, xs⟩ := entry
    by_cases hn : other = n
    · subst hn
      by_cases h : other = name
      · simp [addSample, h]
      · simp [addSample, h, Ne.symm h]
    · have hne : (other == n) = false := beq_false_of_ne hn
      by_cases h : n = name
      · subst h
        simp [addSample, List.lookup_cons, hne, Ne.symm hn]
      · simp only [addSample, if_neg h, List.lookup_cons, hne, ih]

theorem lookup_addSamples (samples : List (String × τ)) (table : List (String × List τ)) (name : String) :
    (addSamples samples table).lookup name =
      if under name samples = [] then table.lookup name
      else some ((table.lookup name).getD [] ++ under name samples) := by
  induction samples generalizing table with
  | nil => rfl
  | cons s samples ih =>
    have hstep : addSamples (s :: samples) table = addSamples samples (addSample s.1 s.2 table) := rfl
    rw [hstep, ih, lookup_addSample]
    by_cases h : s.1 = name
    · have hunder : under name (s :: samples) = s.2 :: under name samples := by simp [under, h]
      rw [hunder]
      by_cases hnil : under name samples = []
      · simp [h, hnil]
      · simp [h, hnil]
    · have hunder : under name (s :: samples) = under name samples := by simp [under, h]
      rw [hunder, if_neg h]

theorem mem_names_addSample {name other : String} {x : τ} {table : List (String × List τ)}
    (h : other ∈ (addSample name x table).map Prod.fst) : other = name ∨ other ∈ table.map Prod.fst := by
  induction table with
  | nil => exact .inl (List.mem_singleton.mp h)
  | cons entry table ih =>
    obtain ⟨n, xs⟩ := entry
    by_cases hn : n = name
    · simp only [addSample, if_pos hn] at h
      exact .inr h
    · simp only [addSample, if_neg hn, List.map_cons, List.mem_cons] at h ⊢
      rcases h with h | h
      · exact .inr (.inl h)
      · exact (ih h).imp_right .inr

theorem nodup_addSample (name : String) (x : τ) {table : List (String × List τ)}
    (h : (table.map Prod.fst).Nodup) : ((addSample name x table).map Prod.fst).Nodup := by
  induction table with
  | nil => simp [addSample]
  | cons entry table ih =>
    obtain ⟨n, xs⟩ := entry
    obtain ⟨hnew, hrest⟩ := List.nodup_cons.mp h
    by_cases hn : n = name
    · simp only [addSample, if_pos hn]
      exact h
    · simp only [addSample, if_neg hn, List.map_cons, List.nodup_cons]
      refine ⟨fun hmem => ?_, ih hrest⟩
      exact (mem_names_addSample hmem).elim hn hnew

theorem nodup_addSamples (samples : List (String × τ)) {table : List (String × List τ)}
    (h : (table.map Prod.fst).Nodup) : ((addSamples samples table).map Prod.fst).Nodup := by
  induction samples generalizing table with
  | nil => exact h
  | cons s samples ih => exact ih (nodup_addSample s.1 s.2 h)

theorem lookup_timingStats [Seconds τ] (t : Tracer τ) (name : String) :
    t.timingStats.lookup name = (t.timings.lookup name).map summarize := by
  unfold timingStats
  induction t.timings with
  | nil => rfl
  | cons entry table ih =>
    obtain ⟨n, xs⟩ := entry
    simp only [List.map_cons, List.lookup_cons, ih]
    split <;> rfl

structure Summary.Describes (s : Summary ℚ) (xs : List ℚ) : Prop where
  count : s.count = xs.length
  total : s.total = xs.sum
  average : s.average = xs.sum / xs.length
  least : xs.min? = some s.least
  greatest : xs.max? = some s.greatest

theorem summarize_describes {xs : List ℚ} (h : xs ≠ []) : (summarize xs).Describes xs := by
  obtain ⟨x, xs, rfl⟩ := List.exists_cons_of_ne_nil h
  have htotal := Seconds.total_eq (x :: xs)
  have hmin : xs.foldl Seconds.min x = xs.foldl Min.min x := by
    rw [funext₂ Seconds.min_eq]
  have hmax : xs.foldl Seconds.max x = xs.foldl Max.max x := by
    rw [funext₂ Seconds.max_eq]
  refine ⟨rfl, htotal, congrArg (· / ((x :: xs).length : ℚ)) htotal, ?_, ?_⟩
  · rw [List.min?_cons', ← hmin]
    rfl
  · rw [List.max?_cons', ← hmax]
    rfl

end Tracer

structure Watch where
  time : ℚ := 0

instance : Clock Watch ℚ where
  now w := w.time
  wall w := w.time

inductive Activity
  | rest
  | delay (d : ℚ)
  | switch (on : Bool)
  | raise (f : Failure ℚ)
  | block (name : String) (inside : Activity)
  | andThen (first next : Activity)
  | attempt (inside : Activity) (handler : Failure ℚ → Activity)

namespace Activity

def perform : Activity → Effect Watch ℚ Unit
  | rest => pure ()
  | delay d => Env.call (Act.modify fun w => { w with time := w.time + d })
  | switch on => Env.updateTracer fun t => { t with enabled := on }
  | raise f => throw f
  | block name inside => Env.timed name inside.perform
  | andThen first next => do
    first.perform
    next.perform
  | attempt inside handler => tryCatch inside.perform fun f => (handler f).perform

structure Visit where
  name : String
  traced : Bool
  delay : ℚ

structure Course where
  outcome : Except (Failure ℚ) Unit
  enabled : Bool
  delay : ℚ := 0
  visits : List Visit := []

namespace Course

def andThen (c next : Course) : Course :=
  { next with delay := c.delay + next.delay, visits := c.visits ++ next.visits }

def samples (c : Course) : List (String × ℚ) :=
  (c.visits.filter Visit.traced).map fun v => (v.name, v.delay)

def delays (c : Course) (name : String) : List ℚ :=
  (c.visits.filter fun v => v.traced && v.name = name).map Visit.delay

theorem samples_andThen (c next : Course) : (c.andThen next).samples = c.samples ++ next.samples := by
  rw [samples, andThen, List.filter_append, List.map_append]
  rfl

end Course

def course : Activity → Bool → Course
  | rest, on => { outcome := .ok (), enabled := on }
  | delay d, on => { outcome := .ok (), enabled := on, delay := d }
  | switch on, _ => { outcome := .ok (), enabled := on }
  | raise f, on => { outcome := .error f, enabled := on }
  | block name inside, on =>
    let c := inside.course on
    { c with visits := c.visits ++ [⟨name, on, c.delay⟩] }
  | andThen first next, on =>
    let c := first.course on
    match c.outcome with
    | .ok _ => c.andThen (next.course c.enabled)
    | .error _ => c
  | attempt inside handler, on =>
    let c := inside.course on
    match c.outcome with
    | .ok _ => c
    | .error f => c.andThen ((handler f).course c.enabled)

/-- What is left of a run that began in `env` and took this course. -/
structure Took (c : Course) (env : Env Watch ℚ) (run : Except (Failure ℚ) Unit × Env Watch ℚ) : Prop where
  outcome : run.1 = c.outcome
  enabled : run.2.tracer.enabled = c.enabled
  time : run.2.world.time = env.world.time + c.delay
  timings : run.2.tracer.timings = Tracer.addSamples c.samples env.tracer.timings

theorem Took.andThen {c next : Course} {env : Env Watch ℚ} {run last : Except (Failure ℚ) Unit × Env Watch ℚ}
    (h : Took c env run) (hnext : Took next run.2 last) : Took (c.andThen next) env last where
  outcome := hnext.outcome
  enabled := hnext.enabled
  time := by rw [hnext.time, h.time, add_assoc]; rfl
  timings := by
    rw [hnext.timings, h.timings, Course.samples_andThen]
    exact (List.foldl_append ..).symm

theorem Took.block {c : Course} {env : Env Watch ℚ} {inside : Effect Watch ℚ Unit}
    (h : Took c env (inside env)) (name : String) :
    Took { c with visits := c.visits ++ [⟨name, env.tracer.enabled, c.delay⟩] } env
      (Env.timed name inside env) := by
  have helapsed : (Seconds.sub (Clock.now (inside env).2.world) (Clock.now env.world) : ℚ) = c.delay := by
    show (inside env).2.world.time - env.world.time = c.delay
    rw [h.time, add_sub_cancel_left]
  rw [Env.timed_eq, helapsed]
  cases hon : env.tracer.enabled with
  | false =>
    refine ⟨h.outcome, h.enabled, h.time, ?_⟩
    simpa [Course.samples] using h.timings
  | true =>
    refine ⟨h.outcome, h.enabled, h.time, ?_⟩
    simp [Course.samples, Tracer.addSamples, Tracer.record, h.timings]

theorem took_course (a : Activity) (env : Env Watch ℚ) : Took (a.course env.tracer.enabled) env (a.perform env) := by
  -- Tracing may be on or off where an activity begins and the table may hold anything, so `env` is general.
  induction a generalizing env with
  | rest => exact ⟨rfl, rfl, (add_zero _).symm, rfl⟩
  | delay d => exact ⟨rfl, rfl, rfl, rfl⟩
  | switch on => exact ⟨rfl, rfl, (add_zero _).symm, rfl⟩
  | raise f => exact ⟨rfl, rfl, (add_zero _).symm, rfl⟩
  | block name inside ih => exact (ih env).block name
  | andThen first next ihfirst ihnext =>
    have h := ihfirst env
    have houtcome := h.outcome
    rcases hrun : first.perform env with ⟨f | _, env'⟩ <;> rw [hrun] at h houtcome
    · simp only [course, perform, ← houtcome, Act.bind_error hrun]
      exact h
    · simp only [course, perform, ← houtcome, Act.bind_ok hrun]
      apply h.andThen
      rw [← h.enabled]
      exact ihnext env'
  | attempt inside handler ihinside ihhandler =>
    have h := ihinside env
    have houtcome := h.outcome
    rcases hrun : inside.perform env with ⟨f | _, env'⟩ <;> rw [hrun] at h houtcome
    · simp only [course, perform, ← houtcome, Act.rescue_error hrun]
      apply h.andThen
      rw [← h.enabled]
      exact ihhandler f env'
    · simp only [course, perform, ← houtcome, Act.rescue_ok hrun]
      exact h

theorem under_samples (c : Course) (name : String) : Tracer.under name c.samples = c.delays name := by
  unfold Tracer.under Course.samples Course.delays
  rw [List.filter_map, List.map_map, List.filter_filter]
  simp [Function.comp_def, Bool.and_comm]

/-- Under each name there are the delays of the blocks of that name that were entered with tracing on, one for
each, in the order in which they were left, and the statistics are those of the samples; exceptions come through
as they were raised. -/
theorem samples_complete (a : Activity) (env : Env Watch ℚ) :
    let course := a.course env.tracer.enabled
    let tracer := (a.perform env).2.tracer
    (a.perform env).1 = course.outcome ∧
      (∀ name, tracer.samples name = env.tracer.samples name ++ course.delays name) ∧
      (∀ name, course.delays name = [] → tracer.timingStats.lookup name = env.tracer.timingStats.lookup name) ∧
      (∀ name, course.delays name ≠ [] →
        ∃ s, tracer.timingStats.lookup name = some s ∧ s.Describes (tracer.samples name)) ∧
      ((env.tracer.timings.map Prod.fst).Nodup → (tracer.timings.map Prod.fst).Nodup) := by
  intro course tracer
  have h : Took course env (a.perform env) := took_course a env
  have htimings : tracer.timings = Tracer.addSamples course.samples env.tracer.timings := h.timings
  have hlookup (name : String) : tracer.timings.lookup name =
      if course.delays name = [] then env.tracer.timings.lookup name
      else some (env.tracer.samples name ++ course.delays name) := by
    rw [← under_samples, htimings]
    exact Tracer.lookup_addSamples _ _ _
  have hsamples (name : String) : tracer.samples name = env.tracer.samples name ++ course.delays name := by
    rw [Tracer.samples, hlookup]
    by_cases hnone : course.delays name = []
    · rw [if_pos hnone, hnone, List.append_nil]
      rfl
    · rw [if_neg hnone]
      rfl
  refine ⟨h.outcome, hsamples, fun name hnone => ?_, fun name hsome => ?_, fun hnames => ?_⟩
  · rw [Tracer.lookup_timingStats, Tracer.lookup_timingStats, hlookup, if_pos hnone]
  · refine ⟨_, ?_, Tracer.summarize_describes ?_⟩
    · rw [Tracer.lookup_timingStats, hlookup, if_neg hsome, hsamples]
      rfl
    · rw [hsamples]
      exact List.append_ne_nil_of_right_ne_nil _ hsome
  · rw [htimings]
    exact Tracer.nodup_addSamples _ hnames

def unwound : Activity :=
  .block "outer" (.andThen (.delay 1) (.block "inner"
    (.andThen (.delay (1 / 2)) (.andThen (.switch false) (.raise (.sandbox "gone"))))))

theorem samples_complete_unwound :
    let run := unwound.perform { world := {}, tracer := { enabled := true } }
    run.1 = .error (.sandbox "gone") ∧ run.2.tracer.timings = [("inner", [1 / 2]), ("outer", [3 / 2])] ∧
      run.2.tracer.timingStats.lookup "other" = none ∧
      (∃ s, run.2.tracer.timingStats.lookup "outer" = some s ∧ s.Describes [3 / 2]) ∧
      (run.2.tracer.timings.map Prod.fst).Nodup := by
  intro run
  obtain ⟨houtcome, hsamples, hunrecorded, hrecorded, hnames⟩ :=
    samples_complete unwound { world := {}, tracer := { enabled := true } }
  have hother : (unwound.course true).delays "other" = [] := by decide +kernel
  have hdelays : (unwound.course true).delays "outer" = [3 / 2] := by decide +kernel
  have houter : run.2.tracer.samples "outer" = [3 / 2] := (hsamples "outer").trans hdelays
  refine ⟨houtcome.trans (by decide +kernel), by decide +kernel, hunrecorded "other" hother, ?_,
    hnames List.nodup_nil⟩
  rw [← houter]
  exact hrecorded "outer" fun hnone => List.cons_ne_nil _ _ (hdelays.symm.trans hnone)

end Activity

end Playpen
