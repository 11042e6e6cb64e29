import Playpen.Sandbox.Pool

namespace Playpen

structure ExecutionResult where
  success : Bool
  output : String := ""
  generatedCode : String := ""
  error : String := ""
  milliseconds : Int := 0
  memoryUsed : Int := 0
deriving DecidableEq

structure Engine (τ : Type) where
  settings : Settings τ
  defaultKey : SessionKey := .text "default"
  versionKey : SessionKey := .text "version"
  recycleOnTimeout : Bool := true

structure Submission (τ : Type) where
  source : Raw
  timeout : Option τ := none
  sections : Bool := false
  key : SessionKey := .null

namespace Engine

open Site (effect noteOf withRunner)

def unavailable : String := "Execution failed: the sandbox is currently unavailable"

def unprepared : String := "Execution failed: could not prepare the sandbox workspace"

def internal : String := "Execution failed due to an internal error"

variable {ω τ : Type} [Seconds τ] [Clock ω τ] (plane : ControlPlane ω τ)
  (factory : RunnerFactory ω τ)

def seconds (e : Engine τ) : Option τ → τ
  | none => e.settings.maxExecutionTime
  | some t => Seconds.max Seconds.zero t

def key (e : Engine τ) (s : Submission τ) : SessionKey := if s.key.truth then s.key else e.defaultKey

def elapsed (start : τ) : SiteAct ω τ Int := do
  let d ← effect (Env.sinceNow start)
  let ms ← Act.lift ((Seconds.millis d).mapError Double.NotWhole.failure)
  pure (max 0 ms)

def failed (error : String) (start : τ) : SiteAct ω τ ExecutionResult := do
  let milliseconds ← elapsed start
  pure { success := false, error, milliseconds }

def acquire (key : SessionKey) : SiteAct ω τ Nat :=
  if key.isKey then Pool.acquire factory key else throw (.other .type none)

def attempt (s : Submission τ) (key : SessionKey) (start deadline : τ) :
    SiteAct ω τ (Except (Failure τ) (Nat × RunOutcome × Int) × Option Nat) := do
  match ← Act.outcome (acquire factory key) with
  | .error e => pure (.error e, none)
  | .ok i =>
    let work : SiteAct ω τ (Nat × RunOutcome × Int) := do
      withRunner i (Runner.inject plane s.source)
      let outcome ← withRunner i (Runner.run plane s.sections (some deadline))
      let milliseconds ← elapsed start
      pure (i, outcome, milliseconds)
    let r ← work.outcome
    pure (r, some i)

def isSuspect : Option Nat → SiteAct ω τ Bool
  | none => pure false
  | some i => Act.read fun s => (s.runners[i]?).any (·.suspect)

def recycle (key : SessionKey) : SiteAct ω τ Unit := do
  try Pool.release plane key
  catch e =>
    if e.isA .playground then
      noteOf .warning key fun key =>
        s!"Could not recycle session '{key}' after timeout: {e.message}"
    else throw e

def resolve (e : Engine τ) (key : SessionKey) (seconds start : τ) (runner : Option Nat)
    (failure : Failure τ) : SiteAct ω τ ExecutionResult := do
  if failure.isA .timeout then
    noteOf .warning key fun key =>
      s!"Execution in session '{key}' timed out after {Seconds.general seconds}s"
    if e.recycleOnTimeout && (← isSuspect runner) then recycle plane key
    failed s!"Execution timed out after {Seconds.general seconds} seconds" start
  else match failure with
    | .process code _ | .memoryLimit code _ _ =>
      noteOf .debug key fun key => s!"Execution in session '{key}' failed with exit code {code}"
      failed failure.message start
    | .workspace _ =>
      noteOf .error key fun key =>
        s!"Workspace preparation failed in session '{key}': {failure.message}"
      failed unprepared start
    | .controlPlane .. | .configuration _ =>
      noteOf .error key fun key => s!"Sandbox unavailable for session '{key}': {failure.message}"
      failed unavailable start
    | _ =>
      noteOf .error key fun key => s!"Unexpected failure executing in session '{key}'"
      failed internal start

def execute (e : Engine τ) (s : Submission τ) : SiteAct ω τ ExecutionResult := do
  let start ← effect Env.now
  let seconds := e.seconds s.timeout
  let deadline := Seconds.add start seconds
  let key := e.key s
  match ← attempt plane factory s key start deadline with
  | (.error failure, runner) => e.resolve plane key seconds start runner failure
  | (.ok (i, outcome, milliseconds), _) =>
    let memoryUsed ← withRunner i (Runner.memoryUsage plane)
    noteOf .debug key fun key => s!"Execution in session '{key}' succeeded in {milliseconds}ms"
    pure
      { success := true
        output := outcome.output
        generatedCode := if s.sections then outcome.generatedCode else ""
        milliseconds
        memoryUsed }

def toolchainVersion (e : Engine τ) : SiteAct ω τ String := do
  let i ← acquire factory e.versionKey
  withRunner i (Runner.toolchainVersion plane none)

def validateToolchain (e : Engine τ) : SiteAct ω τ Unit := do
  let i ← acquire factory e.versionKey
  withRunner i (Runner.validateToolchain plane)

def stats (e : Engine τ) : SiteAct ω τ (PoolStats τ) := Pool.stats e.settings

def shutdown : SiteAct ω τ Unit := Pool.shutdown plane

end Engine

end Playpen
