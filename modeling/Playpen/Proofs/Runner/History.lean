import Mathlib.Data.List.Induction
import Playpen.Proofs.Runner.Calls
import Playpen.Proofs.Runner.Operations

namespace Playpen

open Act (Does)
open PlaneCall (created?)

variable {ω τ : Type}

/-- What callers use a runner for, and what the world does by itself meanwhile. -/
inductive Use (ω τ : Type)
  | start
  | inject (source : Raw)
  | run (sections : Bool) (deadline : Option τ)
  | toolchainVersion (timeout : Option τ)
  | validateToolchain
  | memoryUsage
  | close
  | outside (change : ω → ω)

namespace Use

def isRun : Use ω τ → Bool
  | run .. => true
  | _ => false

def isProbe : Use ω τ → Bool
  | toolchainVersion _ | validateToolchain => true
  | _ => false

def isStart : Use ω τ → Bool
  | start => true
  | _ => false

def isClose : Use ω τ → Bool
  | close => true
  | _ => false

variable [Seconds τ] [Clock ω τ] (plane : ControlPlane ω τ)

def act : Use ω τ → RunnerAct (Recorded ω τ) τ Unit
  | start => Runner.start plane.recorded
  | inject source => Runner.inject plane.recorded source
  | run sections deadline => Runner.run plane.recorded sections deadline >>= fun _ => pure ()
  | toolchainVersion timeout => Runner.toolchainVersion plane.recorded timeout >>= fun _ => pure ()
  | validateToolchain => Runner.validateToolchain plane.recorded
  | memoryUsage => Runner.memoryUsage plane.recorded >>= fun _ => pure ()
  | close => Runner.close plane.recorded
  | outside change => Act.modify fun s =>
    { s with env := { s.env with world := { s.env.world with world := change s.env.world.world } } }

end Use

namespace Seat

def new (settings : Settings τ) (key : SessionKey) (link : Link) (env : Env ω τ) : Seat (Recorded ω τ) τ :=
  ⟨{ key, settings, link }, { env with world := ⟨env.world, []⟩ }⟩

def after [Seconds τ] [Clock ω τ] (plane : ControlPlane ω τ) (s : Seat (Recorded ω τ) τ)
    (uses : List (Use ω τ)) : Seat (Recorded ω τ) τ :=
  uses.foldl (fun s u => (u.act plane s).2) s

end Seat

namespace Runner

inductive Performs [Seconds τ] (r : Runner τ) :
    Use ω τ → List (PlaneCall τ) → Runner τ → Except (Failure τ) Unit → Prop
  | start {added r' out} (h : Starts r added r' out) : Performs r .start added r' out
  | inject {source added r' out} (h : Injects source r added r' out) :
      Performs r (.inject source) added r' out
  | run {sections deadline added r' out} (h : Runs r added r' out) :
      Performs r (.run sections deadline) added r' (out.map fun _ => ())
  | toolchainVersion {timeout added r'} {out : Except (Failure τ) String} (h : Asks r added r' out) :
      Performs r (.toolchainVersion timeout) added r' (out.map fun _ => ())
  | validateToolchain {added r'} {out : Except (Failure τ) Unit} (h : Asks r added r' out) :
      Performs r .validateToolchain added r' out
  | memoryUsage {added r' out} (h : Samples r added out) (hr : r' = r) :
      Performs r .memoryUsage added r' (out.map fun _ => ())
  | close {added r' out} (h : Closes r added r' out) : Performs r .close added r' out
  | outside {change} : Performs r (.outside change) [] r (.ok ())

inductive Lives [Seconds τ] (r : Runner τ) : List (Use ω τ) → List (PlaneCall τ) → Runner τ → Prop
  | unused : Lives r [] [] r
  | used {uses calls r₁ u added r' out} (h : Lives r uses calls r₁) (hu : Performs r₁ u added r' out) :
      Lives r (uses ++ [u]) (calls ++ added) r'

variable {plane : ControlPlane ω τ} {r r' : Runner τ} {u : Use ω τ} {uses : List (Use ω τ)}
  {added calls : List (PlaneCall τ)} {out : Except (Failure τ) Unit}

theorem Closes.legible (h : Closes r added r' out) (hl : r.Legible plane) : r'.Legible plane := by
  cases h with
  | already => exact hl
  | bare => exact ⟨hl.key, hl.plane, hl.environment⟩
  | removed => exact ⟨hl.key, hl.plane, nofun⟩

variable [Seconds τ]

theorem Performs.legible (h : Performs r u added r' out) (hl : r.Legible plane) : r'.Legible plane := by
  cases h with
  | start h => exact h.legible hl
  | inject h => exact h.legible hl
  | run h => exact h.legible hl
  | toolchainVersion h => exact h.legible hl
  | validateToolchain h => exact h.legible hl
  | memoryUsage _ hr => exact hr ▸ hl
  | close h => exact h.legible hl
  | outside => exact hl

theorem Lives.legible (h : Lives r uses calls r') (hl : r.Legible plane) : r'.Legible plane := by
  induction h with
  | unused => exact hl
  | used _ hu ih => exact hu.legible ih

theorem Performs.keeps (h : Performs r u added r' out) :
    Keeps { r with closed := r.closed || u.isClose } r' := by
  have unclosed {u : Use ω τ} {r' : Runner τ} (h : Keeps r r') (hu : u.isClose = false) :
      Keeps { r with closed := r.closed || u.isClose } r' :=
    ⟨h.key, h.settings, h.link, by rw [h.closed, hu, Bool.or_false]⟩
  cases h with
  | start h => exact unclosed h.keeps rfl
  | inject h => exact unclosed h.keeps rfl
  | run h => exact unclosed h.keeps rfl
  | toolchainVersion h | validateToolchain h => exact unclosed h.keeps rfl
  | memoryUsage _ hr => exact unclosed (hr ▸ .refl r) rfl
  | close h =>
    cases h with
    | already hc => exact ⟨rfl, rfl, rfl, by simp [hc]⟩
    | bare | removed => exact ⟨rfl, rfl, rfl, by simp [Use.isClose]⟩
  | outside => exact unclosed (.refl r) rfl

theorem Lives.keeps (h : Lives r uses calls r') :
    Keeps { r with closed := r.closed || uses.any Use.isClose } r' := by
  induction h with
  | unused => exact ⟨rfl, rfl, rfl, by simp⟩
  | used _ hu ih =>
    refine ⟨hu.keeps.key.trans ih.key, hu.keeps.settings.trans ih.settings, hu.keeps.link.trans ih.link, ?_⟩
    rw [hu.keeps.closed, ih.closed, List.any_append, Bool.or_assoc, List.any_cons, List.any_nil, Bool.or_false]

theorem Lives.settings (h : Lives r uses calls r') : r'.settings = r.settings := h.keeps.settings

theorem Lives.owns (h : Lives r uses calls r') : r'.owns = r.owns := h.keeps.owns

theorem Lives.closed (h : Lives r uses calls r') : r'.closed = (r.closed || uses.any Use.isClose) :=
  h.keeps.closed

end Runner

variable {plane : ControlPlane ω τ} {s : Seat (Recorded ω τ) τ}

theorem Seat.does_forget {α : Type} {x : RunnerAct (Recorded ω τ) τ α}
    {P : Except (Failure τ) α → List (PlaneCall τ) → Seat (Recorded ω τ) τ → Prop} (h : Does x s P) :
    Does (x >>= fun _ => pure ()) s fun forgot added s' =>
      ∃ out, forgot = out.map (fun _ => ()) ∧ P out added s' := by
  refine .bind h ?_ ?_
  · intro a added s' hp
    exact .pure ⟨.ok a, rfl, by rwa [List.append_nil]⟩
  · intro e added s' hp
    exact ⟨.error e, rfl, hp⟩

theorem Seat.new_legible {settings : Settings τ} {key : SessionKey} (hk : ∃ t, key.display = .ok t)
    (hp : plane.Legible settings) (link : Link) (env : Env ω τ) :
    (Seat.new settings key link env).runner.Legible plane :=
  ⟨hk, hp, nofun⟩

variable [Seconds τ] [Clock ω τ]

theorem Use.act_does (hl : s.runner.Legible plane) (u : Use ω τ) :
    Does (u.act plane) s fun out added s' => s.runner.Performs u added s'.runner out := by
  cases u with
  | start => exact (Runner.start_does hl).mono fun _ _ _ => .start
  | inject source => exact (Runner.inject_does hl source).mono fun _ _ _ => .inject
  | run sections deadline =>
    refine (Seat.does_forget (Runner.run_does hl sections deadline)).mono ?_
    rintro _ added s' ⟨out, rfl, h⟩
    exact .run h
  | toolchainVersion timeout =>
    refine (Seat.does_forget (Runner.toolchainVersion_does hl timeout)).mono ?_
    rintro _ added s' ⟨out, rfl, h⟩
    exact .toolchainVersion h
  | validateToolchain => exact (Runner.validateToolchain_does hl).mono fun _ _ _ => .validateToolchain
  | memoryUsage =>
    refine (Seat.does_forget (Runner.memoryUsage_does hl)).mono ?_
    rintro _ added s' ⟨out, rfl, hr, h⟩
    exact .memoryUsage h hr
  | close => exact (Runner.close_does hl).mono fun _ _ _ => .close
  | outside change => exact .of_eq rfl rfl .outside

theorem Seat.after_append (s : Seat (Recorded ω τ) τ) (uses more : List (Use ω τ)) :
    s.after plane (uses ++ more) = (s.after plane uses).after plane more := List.foldl_append

theorem Seat.after_lives (hl : s.runner.Legible plane) (uses : List (Use ω τ)) :
    ∃ added, (s.after plane uses).env.world.calls = s.env.world.calls ++ added ∧
      s.runner.Lives uses added (s.after plane uses).runner := by
  induction uses using List.reverseRecOn with
  | nil => exact ⟨[], (List.append_nil _).symm, .unused⟩
  | append_singleton uses u ih =>
    obtain ⟨added, hc, hlives⟩ := ih
    obtain ⟨more, hc', hu⟩ := Use.act_does (hlives.legible hl) u
    have hcalls : ((s.after plane uses).after plane [u]).env.world.calls =
        (s.after plane uses).env.world.calls ++ more := hc'
    rw [Seat.after_append]
    exact ⟨added ++ more, by rw [hcalls, hc, List.append_assoc], hlives.used hu⟩

end Playpen
