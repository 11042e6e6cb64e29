import Playpen.Proofs.Docker.Processes
import Playpen.Proofs.Docker.Requests

namespace Playpen.Docker

open Act (Does)
open Recording (calls)

variable {ω τ : Type}

inductive Connection.IsOpen : Connection τ → Prop
  | cli (binary : String) (limit : τ) : IsOpen (.cli ⟨.text binary, limit⟩)
  | api (limit : τ) {w : Workers} (h : w.shut = false) : IsOpen (.api limit w)

abbrev Line (τ : Type) : Type := Errand τ × List (Contact τ)

namespace Line

def marks (line : Line τ) : List (String × Bool) := Docker.marks line.1 line.2

def entered (line : Line τ) : Bool := line.2.getLast?.any fun c => c.entered line.1

def failed (line : Line τ) : Bool := line.2.getLast?.any fun c => c.entered line.1 && !c.completes line.1

end Line

def ledger (plane : ControlPlane (Rack (Noted ω τ) τ) τ) (l : Link) :
    List (Errand τ) → Env (Rack (Noted ω τ) τ) τ → List (Line τ)
  | [], _ => []
  | errand :: errands, env =>
    let env' := (plane.carry l errand env).2
    (errand, (calls env').drop (calls env).length) :: ledger plane l errands env'

def traced (t : Tracer τ) : List (String × Bool) := t.calls.map fun c => mark c.entry

theorem Reports.traced {env env' : Env (Rack (Noted ω τ) τ) τ} {entries : List Entry} (h : Reports env entries env')
    (henabled : env.tracer.enabled = true) :
    traced env'.tracer = Docker.traced env.tracer ++ entries.map mark := by
  have hcalls := congrArg (List.map mark) h.calls
  rw [henabled, if_pos rfl, List.map_append, List.map_map, List.map_map] at hcalls
  exact hcalls

section

variable [Seconds τ] [Clock ω τ] {shell : Shell ω τ} {client : Client ω τ} {env : Env (Rack (Noted ω τ) τ) τ} {l : Link}
  {c : Connection τ}

theorem does_carry {errand : Errand τ} (hl : env.world.connections[l]? = some c) (hopen : c.IsOpen)
    (herrand : errand.IsTextual) :
    Does ((plane shell.noted client.noted).carry l errand) env fun _ added env' =>
      ∃ entries, Reports env entries env' ∧ entries.map mark = marks errand added := by
  cases hopen with
  | cli binary limit =>
    refine (Cli.does_carry hl herrand).mono fun out added env' h => ?_
    cases h with
    | unwritten hspec hwords hr => exact ⟨[], .refl env, rfl⟩
    | launched hreports hentries hr => exact ⟨_, hreports, hentries⟩
  | api limit hopen => exact (Api.does_carry hl hopen herrand).mono fun out added env' h => h.reports

end

end Playpen.Docker
