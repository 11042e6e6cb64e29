import Playpen.Sandbox.Runner
/-!
The pool: which runner stands for which session key. At most one runner is registered per key; a guard
per key, counted by its users, is there only while some caller builds or removes that key's runner.
-/
namespace Playpen

/-- The pool in its surroundings. Runners keep their numbers; the registry names the live ones. -/
structure Site (ω τ : Type) where
  env : Env ω τ
  runners : List (Runner τ) := []
  registry : List (SessionKey × Nat) := []
  guards : List (SessionKey × Nat) := []

abbrev SiteAct (ω τ α : Type) : Type := Act (Site ω τ) (Failure τ) α

abbrev RunnerFactory (ω τ : Type) : Type := SessionKey → Effect ω τ (Runner τ)

structure PoolStats (τ : Type) where
  active : Nat
  maxMemory : Int
  maxExecutionTime : τ

namespace Guards

def enter (key : SessionKey) : List (SessionKey × Nat) → List (SessionKey × Nat)
  | [] => [(key, 1)]
  | (k, users) :: rest =>
    if k.sameKey key then (k, users + 1) :: rest else (k, users) :: enter key rest

def leave (key : SessionKey) : List (SessionKey × Nat) → List (SessionKey × Nat)
  | [] => []
  | (k, users) :: rest =>
    if k.sameKey key then (if users ≤ 1 then rest else (k, users - 1) :: rest)
    else (k, users) :: leave key rest

end Guards

namespace Site

variable {ω τ α : Type}

def effect (x : Effect ω τ α) : SiteAct ω τ α :=
  Act.within Site.env (fun env s => { s with env }) x

def note (level : Level) (message : String) : SiteAct ω τ Unit := effect (Env.note level message)

def noteOf (level : Level) (key : SessionKey) (message : String → String) : SiteAct ω τ Unit :=
  effect (Env.noteUsing level (key.display.map message))

def withRunner (i : Nat) (x : RunnerAct ω τ α) : SiteAct ω τ α := fun s =>
  match s.runners[i]? with
  | none => (.error (.other .lookup none), s)
  | some runner =>
    let (r, seat) := x ⟨runner, s.env⟩
    (r, { s with env := seat.env, runners := s.runners.set i seat.runner })

def adopt (r : Runner τ) : SiteAct ω τ Nat := fun s =>
  (.ok s.runners.length, { s with runners := s.runners ++ [r] })

def registered (key : SessionKey) : SiteAct ω τ (Option Nat) :=
  Act.read fun s => key.lookUp s.registry

def guarded (key : SessionKey) (x : SiteAct ω τ α) : SiteAct ω τ α := do
  Act.modify fun s => { s with guards := Guards.enter key s.guards }
  x.ensure (Act.modify fun s => { s with guards := Guards.leave key s.guards })

end Site

namespace Pool

open Site (effect note noteOf withRunner registered guarded)

variable {ω τ : Type} [Seconds τ] [Clock ω τ] (plane : ControlPlane ω τ)
  (factory : RunnerFactory ω τ)

def build (key : SessionKey) : SiteAct ω τ Nat := do
  match ← registered key with
  | some i => pure i
  | none =>
    noteOf .debug key fun key => s!"Creating runner for session '{key}'"
    let r ← effect (factory key)
    let i ← Site.adopt r
    Act.modify fun s => { s with registry := s.registry ++ [(key, i)] }
    pure i

def acquire (key : SessionKey) : SiteAct ω τ Nat := do
  match ← registered key with
  | some i => pure i
  | none => guarded key (build factory key)

def get? (key : SessionKey) : SiteAct ω τ (Option Nat) := registered key

def retire (key : SessionKey) : SiteAct ω τ Unit := do
  match ← registered key with
  | none => pure ()
  | some i =>
    Act.modify fun s => { s with registry := s.registry.filter (!·.1.sameKey key) }
    withRunner i (Runner.close plane)
    noteOf .debug key fun key => s!"Released runner for session '{key}'"

/-- Unregisters the key's runner and closes it; the entry is gone even if closing fails. -/
def release (key : SessionKey) : SiteAct ω τ Unit := do
  match ← registered key with
  | none => pure ()
  | some _ => guarded key (retire plane key)

def releaseAll : List SessionKey → Nat → Option (Failure τ) → SiteAct ω τ (Nat × Option (Failure τ))
  | [], failures, last => pure (failures, last)
  | key :: rest, failures, last => do
    match ← Act.outcome (release plane key) with
    | .ok _ => releaseAll rest failures last
    | .error e =>
      noteOf .error key fun key => s!"Failed to close runner for session '{key}': {e.message}"
      releaseAll rest (failures + 1) (some e)

def shutdown : SiteAct ω τ Unit := do
  let keys ← Act.read fun s => s.registry.map (·.1)
  match ← releaseAll plane keys 0 none with
  | (_, none) => pure ()
  | (failures, some e) =>
    note .error s!"Pool shutdown finished with {failures} failure(s)"
    throw e

def stats (settings : Settings τ) : SiteAct ω τ (PoolStats τ) :=
  Act.read fun s => ⟨s.registry.length, settings.memoryLimit, settings.maxExecutionTime⟩

end Pool

end Playpen
