import Playpen.Proofs.Engine.History
import Playpen.Proofs.Runner.Calls

namespace Playpen

open Act (Does)
open PlaneCall (Only)

variable {ω τ : Type}

namespace Engine

def report [Seconds τ] (seconds : τ) (f : Failure τ) : String :=
  if f.isA .timeout then s!"Execution timed out after {Seconds.general seconds} seconds"
  else match f with
    | .process .. | .memoryLimit .. => f.message
    | .workspace _ => unprepared
    | .controlPlane .. | .configuration _ => unavailable
    | _ => internal

def refusal [Seconds τ] (seconds : τ) (f : Failure τ) (milliseconds : Int) : ExecutionResult where
  success := false
  error := report seconds f
  milliseconds := milliseconds

end Engine

inductive Holdings.Answers [Seconds τ] (e : Engine τ) (sub : Submission τ) (i : Nat) (h : Holdings τ) :
    List (PlaneCall τ) → Holdings τ → Except (Failure τ) ExecutionResult → Prop
  | kept {r added r' f ms} (hr : h.runners[i]? = some r) (ha : r.Attempts sub.source added r' (.error f))
      (hn : ¬ (f.isA .timeout = true ∧ e.recycleOnTimeout = true ∧ r'.suspect = true)) :
      Answers e sub i h added (h.put i r') (.ok (Engine.refusal (e.seconds sub.timeout) f ms))
  | recycled {r added r' f more h' reply out} (hr : h.runners[i]? = some r)
      (ha : r.Attempts sub.source added r' (.error f)) (ht : f.isA .timeout = true)
      (hy : e.recycleOnTimeout = true) (hs : r'.suspect = true)
      (hl : (h.put i r').Releases (e.key sub) more h' reply)
      (hok : ∀ res, out = .ok res → ∃ ms, res = Engine.refusal (e.seconds sub.timeout) f ms)
      (herror : ∀ g, out = .error g ↔ reply = .error g ∧ g.isA .playground = false) :
      Answers e sub i h (added ++ more) h' out
  | ran {r added r' outcome more h' out} (hr : h.runners[i]? = some r)
      (ha : r.Attempts sub.source added r' (.ok outcome)) (hm : Only [.memoryUsage] more) :
      Answers e sub i h (added ++ more) h' out

theorem Site.noteOf_world (level : Level) (key : SessionKey) (message : String → String) (s : Site ω τ) :
    (Site.noteOf level key message s).2.env.world = s.env.world := by
  show (Env.noteUsing level (key.display.map message) s.env).2.world = s.env.world
  rcases key.display.map message with _ | _ <;> rfl

namespace Engine

section

variable [Seconds τ] [Clock ω τ] {plane : ControlPlane ω τ} {s s' : Site ω τ} {res : ExecutionResult}

theorem elapsed_apply (start : τ) (s : Site ω τ) :
    (∃ n, Seconds.millis (Seconds.sub (Clock.now s.env.world) start) = .ok n ∧
      elapsed start s = (.ok (max 0 n), s)) ∨
    ∃ e : Double.NotWhole, Seconds.millis (Seconds.sub (Clock.now s.env.world) start) = .error e ∧
      elapsed start s = (.error e.failure, s) := by
  have heq : elapsed start s = Act.bind (Act.lift (Except.mapError Double.NotWhole.failure
      (Seconds.millis (Seconds.sub (Clock.now s.env.world) start)))) (fun ms => pure (max 0 ms)) s := rfl
  rw [heq]
  cases hn : Seconds.millis (Seconds.sub (Clock.now s.env.world) start) with
  | ok n => exact .inl ⟨n, rfl, rfl⟩
  | error e => exact .inr ⟨e, rfl, rfl⟩

theorem elapsed_ok {start : τ} {ms : Int} (h : elapsed start s = (.ok ms, s')) :
    0 ≤ ms ∧ ∃ n, Seconds.millis (Seconds.sub (Clock.now s.env.world) start) = .ok n := by
  obtain ⟨n, hn, hok⟩ | ⟨e, _, herror⟩ := elapsed_apply start s
  · cases hok.symm.trans h
    exact ⟨Int.le_max_left 0 n, n, hn⟩
  · cases herror.symm.trans h

theorem failed_ok {error : String} {start : τ} (h : failed error start s = (.ok res, s')) :
    (∃ ms, 0 ≤ ms ∧ res = { success := false, error, milliseconds := ms }) ∧
      ∃ n, Seconds.millis (Seconds.sub (Clock.now s.env.world) start) = .ok n := by
  obtain ⟨ms, _, hms, h⟩ := Act.ok_of_bind h
  obtain ⟨hle, hn⟩ := elapsed_ok hms
  cases h
  exact ⟨⟨ms, hle, rfl⟩, hn⟩

theorem resolve_ok {e : Engine τ} {key : SessionKey} {seconds start : τ} {runner : Option Nat}
    {f : Failure τ} (h : e.resolve plane key seconds start runner f s = (.ok res, s')) :
    (∃ ms, 0 ≤ ms ∧ res = refusal seconds f ms) ∧ (f.isA .timeout = false →
      ∃ n, Seconds.millis (Seconds.sub (Clock.now s.env.world) start) = .ok n) := by
  unfold resolve at h
  unfold refusal report
  cases ht : f.isA .timeout with
  | true =>
    simp only [ht, ↓reduceIte] at h ⊢
    obtain ⟨_, _, _, h⟩ := Act.ok_of_bind h
    obtain ⟨suspect, _, _, h⟩ := Act.ok_of_bind h
    split at h
    · obtain ⟨_, _, _, h⟩ := Act.ok_of_bind h
      exact ⟨(failed_ok h).1, nofun⟩
    · exact ⟨(failed_ok h).1, nofun⟩
  | false =>
    simp only [ht, Bool.false_eq_true, ↓reduceIte] at h ⊢
    have hworld {level message t} (hnote : Site.noteOf level key message s = (.ok (), t)) :
        t.env.world = s.env.world := by
      rw [← Site.noteOf_world level key message s, hnote]
    cases f
    all_goals
      obtain ⟨_, _, hnote, h⟩ := Act.ok_of_bind h
      rw [← hworld hnote]
      exact ⟨(failed_ok h).1, fun _ => (failed_ok h).2⟩

end

variable [Seconds τ] [Clock ω τ] {plane : ControlPlane ω τ} {settings : Settings τ}
  {s : Site (Recorded ω τ) τ}

theorem proceed_answers {k : SessionKey} {i : Nat} (hs : s.holdings.Sound plane settings)
    (hk : (k, i) ∈ s.holdings.registry) (e : Engine τ) (sub : Submission τ) {start : τ}
    (ho : Orderly ω (e.key sub) start) :
    Does (e.proceed plane.recorded sub start i) s fun out added s' =>
      s.holdings.Answers e sub i added s'.holdings out := by
  obtain ⟨r, hr, hl, _⟩ := hs.runner hk
  unfold proceed
  refine .bind_of_ok (.outcome (work_does hr hl sub _)) ?_
  rintro reply added s₁ ⟨r₁, hh₁, hw⟩
  have hr₁ : s₁.runners[i]? = some r₁ :=
    (congrArg (fun h => h.runners[i]?) hh₁).trans (Holdings.getElem?_put hr r₁)
  rcases hw with ⟨f, rfl, ha⟩ | ⟨outcome, ha, ⟨⟨j, result, ms⟩, rfl, hj⟩ | ⟨f, rfl, ht, hm⟩⟩
  · have hs₁ : s₁.holdings.Sound plane settings := by
      rw [hh₁]
      exact hs.put hr ha.keeps (ha.legible hl)
    refine (Does.also (Q := fun out => ∀ res, out = .ok res → ∃ ms, res = refusal (e.seconds sub.timeout) f ms)
      (resolve_does hs₁ e _ _ _ (some i) f) fun res h =>
        (resolve_ok (Prod.ext h rfl)).1.imp fun _ h => h.2).mono ?_
    rintro out more s₂ ⟨hok, ⟨rfl, hh₂, hout⟩ | ⟨⟨ht, hy, j, q, ⟨⟩, hq, hsus⟩, reply, hrel, hout⟩⟩
    · obtain ⟨hn, res, rfl⟩ := hout ho
      obtain ⟨ms, rfl⟩ := hok res rfl
      rw [hh₂, hh₁, List.append_nil]
      exact .kept hr ha fun ⟨ht, hy, hsus⟩ => hn ⟨ht, hy, i, r₁, rfl, hr₁, hsus⟩
    · cases hr₁.symm.trans hq
      exact .recycled hr ha ht hy hsus (hh₁ ▸ hrel) hok (hout ho)
  · obtain rfl : j = i := hj
    refine .bind (Site.does_withRunner (P := fun out added r' => r' = r₁ ∧ r₁.Samples added out) hr₁
      (Runner.memoryUsage_does (ha.legible hl))) ?_ ?_
    · rintro n more s₂ ⟨_, hh₂, rfl, hsample⟩
      refine (Does.bind (Site.does_noteOf .debug (e.key sub) _) ?_ ?_)
      · rintro _ _ s₃ ⟨hh₃, rfl, _⟩
        exact .pure (.ran hr ha (by simpa using hsample.only))
      · rintro f _ s₃ ⟨hh₃, rfl, hshown⟩
        exact .ran hr ha (by simpa using hsample.only)
    · rintro f more s₂ ⟨_, hh₂, rfl, hsample⟩
      exact .ran hr ha hsample.only
  · exact absurd ho.2 hm

theorem execute_answers (hp : plane.Legible settings) (hs : s.holdings.Sound plane settings) (e : Engine τ)
    (sub : Submission τ) (ho : Orderly ω (e.key sub) (Clock.now s.env.world : τ)) :
    let run := e.execute plane.recorded (Runner.open plane.recorded settings) sub s
    ∃ first h reply, s.holdings.Acquires settings (e.key sub) first h reply ∧
      (run.2.env.world.calls = s.env.world.calls ++ first ∧ run.2.holdings = h ∧ (∃ f, reply = .error f) ∨
        ∃ i rest, reply = .ok i ∧ run.2.env.world.calls = s.env.world.calls ++ (first ++ rest) ∧
          h.Answers e sub i rest run.2.holdings run.1) := by
  intro run
  obtain ⟨first, hfirst, ha, ⟨hc, hh, f, hf, _⟩ | ⟨i, _, hi, _⟩⟩ := execute_cases (s := s) hp hs e sub
  · exact ⟨first, _, _, ha, .inl ⟨hc.trans hfirst, hh, f, hf⟩⟩
  · have hrun : run = _ := execute_eq plane.recorded (Runner.open plane.recorded settings) e sub s
    rcases hacq : acquire (Runner.open plane.recorded settings) (e.key sub) s with ⟨_, s₁⟩
    rw [hacq] at hi ha hfirst hrun
    cases hi
    obtain ⟨k, hm⟩ := ha.registered
    obtain ⟨rest, hrest, hanswers⟩ := proceed_answers (ha.sound hp hs) hm e sub ho
    refine ⟨first, _, _, ha, .inr ⟨i, rest, rfl, ?_, ?_⟩⟩
    · rw [hrun, ← List.append_assoc, ← hfirst]
      exact hrest
    · rw [hrun]
      exact hanswers

end Engine

end Playpen
