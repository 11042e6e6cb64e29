import Playpen.Act
import Playpen.Failure
import Playpen.Log
/-!
The surroundings of a session: the world outside, the log, the tracer, and the supply of fresh names.
The tracer keeps, while enabled, how long named blocks took and every call made to the control plane.
-/
namespace Playpen

/-- A world with a clock: `now` measures durations, `wall` dates files. -/
class Clock (ω : Type) (τ : outParam Type) where
  now : ω → τ
  wall : ω → τ

structure TracedCall (τ : Type) where
  operation : String
  environment : Option Value
  elapsed : τ
  error : Option String

structure Tracer (τ : Type) where
  enabled : Bool := false
  timings : List (String × List τ) := []
  calls : List (TracedCall τ) := []

namespace Tracer

variable {τ : Type} [Seconds τ]

def addSample (name : String) (elapsed : τ) : List (String × List τ) → List (String × List τ)
  | [] => [(name, [elapsed])]
  | (n, xs) :: rest =>
    if n = name then (n, xs ++ [elapsed]) :: rest else (n, xs) :: addSample name elapsed rest

def record (name : String) (elapsed : τ) (t : Tracer τ) : Tracer τ :=
  { t with timings := addSample name elapsed t.timings }

def addCall (call : TracedCall τ) (t : Tracer τ) : Tracer τ := { t with calls := t.calls ++ [call] }

def samples (t : Tracer τ) (name : String) : List τ := (t.timings.lookup name).getD []

structure Summary (τ : Type) where
  count : Nat
  total : τ
  average : τ
  least : τ
  greatest : τ

def summarize : List τ → Summary τ
  | [] => ⟨0, Seconds.zero, Seconds.zero, Seconds.zero, Seconds.zero⟩
  | x :: xs =>
    let total := Seconds.total (x :: xs)
    let count := xs.length + 1
    ⟨count, total, Seconds.divNat total count, xs.foldl Seconds.min x, xs.foldl Seconds.max x⟩

def timingStats (t : Tracer τ) : List (String × Summary τ) :=
  t.timings.map fun (name, xs) => (name, summarize xs)

def count (name : String) : List (String × Nat) → List (String × Nat)
  | [] => [(name, 1)]
  | (n, k) :: rest => if n = name then (n, k + 1) :: rest else (n, k) :: count name rest

structure CallStats (τ : Type) where
  total : Nat
  failed : Nat
  time : τ
  byOperation : List (String × Nat)

def callStats (t : Tracer τ) : CallStats τ where
  total := t.calls.length
  failed := t.calls.countP fun c => c.error.isSome
  time := Seconds.total (t.calls.map (·.elapsed))
  byOperation := t.calls.foldl (fun counts c => count c.operation counts) []

end Tracer

structure Env (ω τ : Type) where
  world : ω
  log : List Record := []
  tracer : Tracer τ := {}
  drawn : Nat := 0

abbrev Effect (ω τ α : Type) : Type := Act (Env ω τ) (Failure τ) α

abbrev Call (ω τ α : Type) : Type := Act ω (Failure τ) α

def Act.used {σ τ α : Type} (r : Except Misuse α) : Act σ (Failure τ) α :=
  Act.lift (r.mapError Misuse.failure)

/-- What an environment goes by. A control plane gives text, but an environment that is attached to
goes by whatever value its name has. -/
abbrev EnvironmentId : Type := Value

def shortId (id : EnvironmentId) : Except Misuse String := do
  let start ← id.firstItems 12
  start.display

namespace Env

variable {ω τ α : Type}

def call (x : Call ω τ α) : Effect ω τ α :=
  Act.within Env.world (fun w env => { env with world := w }) x

def note (level : Level) (message : String) : Effect ω τ Unit :=
  Act.modify fun env => { env with log := env.log ++ [⟨level, message⟩] }

def noteUsing (level : Level) (message : Except Misuse String) : Effect ω τ Unit := do
  let text ← Act.used message
  note level text

def updateTracer (f : Tracer τ → Tracer τ) : Effect ω τ Unit :=
  Act.modify fun env => { env with tracer := f env.tracer }

def draw : Effect ω τ Nat := fun env =>
  (.ok (env.drawn + 1), { env with drawn := env.drawn + 1 })

variable [Clock ω τ]

def now : Effect ω τ τ := Act.read fun env => Clock.now env.world

def wall : Effect ω τ τ := Act.read fun env => Clock.wall env.world

variable [Seconds τ]

def sinceNow (start : τ) : Effect ω τ τ := do
  let t ← now
  pure (Seconds.sub t start)

def timed (name : String) (block : Effect ω τ α) : Effect ω τ α := do
  let enabled ← Act.read fun env => env.tracer.enabled
  if !enabled then block
  else
    let start ← now
    block.ensure do
      let elapsed ← sinceNow start
      updateTracer (Tracer.record name elapsed)
      note .debug s!"[timing] {name}: {Seconds.fixed 3 elapsed}s"

def shown (id : Option EnvironmentId) : Except Misuse String :=
  match id with
  | some id => if id.truth then shortId id else .ok "-"
  | none => .ok "-"

def traceCall (operation : String) (id : Option EnvironmentId) (elapsed : τ) (error : Option String) :
    Effect ω τ Unit := do
  let enabled ← Act.read fun env => env.tracer.enabled
  if enabled then
    updateTracer (Tracer.addCall ⟨operation, id, elapsed, error⟩)
    let status := match error with
      | none => "ok"
      | some e => s!"failed: {e}"
    let place ← Act.used (shown id)
    note .debug s!"[control] {operation} env={place} {Seconds.fixed 3 elapsed}s {status}"

def traceSince (operation : String) (id : Option EnvironmentId) (start : τ) (error : Option String) :
    Effect ω τ Unit := do
  let elapsed ← sinceNow start
  traceCall operation id elapsed error

end Env

end Playpen
