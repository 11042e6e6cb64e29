import Playpen.Sandbox.Pool
/-!
The pool under several threads. A thread goes through its calls one atomic step at a time, and the steps
of different threads come in any order. A step is one block under the registry lock, taking or giving
back the lock of a guard, or one end of a factory call or of closing a runner.
-/
namespace Playpen.Threads

open Site (noteOf withRunner)

structure Guard where
  users : Nat
  taken : Bool

inductive Task
  | acquire
  | release
deriving DecidableEq

abbrev Reply (τ : Type) : Type := Except (Failure τ) (Option Nat)

inductive Phase (τ : Type)
  | idle
  | looking (task : Task) (key : SessionKey)
  | entering (task : Task) (key : SessionKey)
  | waiting (task : Task) (key : SessionKey) (guard : Nat)
  | checking (task : Task) (key : SessionKey) (guard : Nat)
  | announcing (key : SessionKey) (guard : Nat)
  | building (key : SessionKey) (guard : Nat)
  | registering (key : SessionKey) (guard runner : Nat)
  | retiring (key : SessionKey) (guard runner : Nat)
  | closing (key : SessionKey) (guard runner : Nat)
  | unlocking (key : SessionKey) (guard : Nat) (reply : Reply τ)
  | leaving (key : SessionKey) (guard : Nat) (reply : Reply τ)
  | returning (key : SessionKey) (reply : Reply τ)

structure Shared (ω τ : Type) where
  env : Env ω τ
  runners : List (Runner τ) := []
  builtFor : List SessionKey := []
  closings : List Nat := []
  registry : List (SessionKey × Nat) := []
  current : List (SessionKey × Nat) := []
  guards : List Guard := []

namespace Shared

variable {ω τ α : Type}

def users (s : Shared ω τ) (g : Nat) : Nat := (s.guards[g]?).elim 0 Guard.users

def isTaken (s : Shared ω τ) (g : Nat) : Bool := (s.guards[g]?).any Guard.taken

def site (s : Shared ω τ) : Site ω τ where
  env := s.env
  runners := s.runners
  registry := s.registry
  guards := s.current.map fun (k, g) => (k, s.users g)

def act (x : SiteAct ω τ α) (s : Shared ω τ) : Except (Failure τ) α × Shared ω τ :=
  let (r, site) := x s.site
  (r, { s with env := site.env, runners := site.runners })

def setGuard (s : Shared ω τ) (g : Nat) (f : Guard → Guard) : Shared ω τ :=
  { s with guards := s.guards.modify g f }

def enter (s : Shared ω τ) (key : SessionKey) : Nat × Shared ω τ :=
  match key.lookUp s.current with
  | some g => (g, s.setGuard g fun c => { c with users := c.users + 1 })
  | none =>
    let g := s.guards.length
    (g, { s with current := s.current ++ [(key, g)], guards := s.guards ++ [⟨1, false⟩] })

def leave (s : Shared ω τ) (key : SessionKey) (g : Nat) : Except (Failure τ) Unit × Shared ω τ :=
  let s := s.setGuard g fun c => { c with users := c.users - 1 }
  if s.users g ≠ 0 then (.ok (), s)
  else match key.lookUp s.current with
    | some _ => (.ok (), { s with current := s.current.filter (!·.1.sameKey key) })
    | none => (.error (.other .lookup none), s)

end Shared

def register (key : SessionKey) (i : Nat) : List (SessionKey × Nat) → List (SessionKey × Nat)
  | [] => [(key, i)]
  | (k, j) :: rest => if k.sameKey key then (k, i) :: rest else (k, j) :: register key i rest

variable {ω τ : Type} (plane : ControlPlane ω τ) (factory : RunnerFactory ω τ)

def announcement (key : SessionKey) : SiteAct ω τ Unit :=
  noteOf .debug key fun key => s!"Creating runner for session '{key}'"

def construction (key : SessionKey) : SiteAct ω τ Nat := do
  let r ← Site.effect (factory key)
  Site.adopt r

def retirement (key : SessionKey) (i : Nat) : SiteAct ω τ Unit := do
  withRunner i (Runner.close plane)
  noteOf .debug key fun key => s!"Released runner for session '{key}'"

/-- The next step of a thread; there is none for an idle thread, and none while the guard it waits for
is taken. -/
def advance : Phase τ → Shared ω τ → Option (Phase τ × Shared ω τ)
  | .idle, _ => none
  | .looking .acquire key, s =>
    match key.lookUp s.registry with
    | some i => some (.returning key (.ok (some i)), s)
    | none => some (.entering .acquire key, s)
  | .looking .release key, s =>
    match key.lookUp s.registry with
    | some _ => some (.entering .release key, s)
    | none => some (.returning key (.ok none), s)
  | .entering task key, s =>
    let (g, s) := s.enter key
    some (.waiting task key g, s)
  | .waiting task key g, s =>
    if s.isTaken g then none
    else some (.checking task key g, s.setGuard g fun c => { c with taken := true })
  | .checking .acquire key g, s =>
    match key.lookUp s.registry with
    | some i => some (.unlocking key g (.ok (some i)), s)
    | none => some (.announcing key g, s)
  | .checking .release key g, s =>
    match key.lookUp s.registry with
    | some i =>
      some (.retiring key g i, { s with registry := s.registry.filter (!·.1.sameKey key) })
    | none => some (.unlocking key g (.ok none), s)
  | .announcing key g, s =>
    match s.act (announcement key) with
    | (.ok _, s) => some (.building key g, s)
    | (.error e, s) => some (.unlocking key g (.error e), s)
  | .building key g, s =>
    match s.act (construction factory key) with
    | (.ok i, s) => some (.registering key g i, { s with builtFor := s.builtFor ++ [key] })
    | (.error e, s) => some (.unlocking key g (.error e), s)
  | .registering key g i, s =>
    some (.unlocking key g (.ok (some i)), { s with registry := register key i s.registry })
  | .retiring key g i, s => some (.closing key g i, { s with closings := s.closings ++ [i] })
  | .closing key g i, s =>
    let (r, s) := s.act (retirement plane key i)
    some (.unlocking key g (r.map fun _ => none), s)
  | .unlocking key g reply, s =>
    some (.leaving key g reply, s.setGuard g fun c => { c with taken := false })
  | .leaving key g reply, s =>
    let (r, s) := s.leave key g
    some (.returning key (r.bind fun _ => reply), s)
  | .returning _ _, s => some (.idle, s)

structure State (ω τ : Type) extends Shared ω τ where
  threads : List (Phase τ)

namespace State

def fresh (env : Env ω τ) (n : Nat) : State ω τ := { env, threads := List.replicate n .idle }

end State

inductive Move (ω τ : Type)
  | begin (t : Nat) (task : Task) (key : SessionKey)
  | advance (t : Nat)
  | outside (env : Env ω τ → Env ω τ) (runners : Nat → Runner τ → Runner τ)

def move (s : State ω τ) : Move ω τ → State ω τ
  | .begin t task key =>
    match s.threads[t]? with
    | some .idle =>
      if key.isKey then { s with threads := s.threads.set t (.looking task key) } else s
    | _ => s
  | .advance t =>
    match (s.threads[t]?).bind (advance plane factory · s.toShared) with
    | some (p, shared) => { toShared := shared, threads := s.threads.set t p }
    | none => s
  | .outside env runners => { s with env := env s.env, runners := s.runners.mapIdx runners }

def after (moves : List (Move ω τ)) (s : State ω τ) : State ω τ :=
  moves.foldl (move plane factory) s

end Playpen.Threads
