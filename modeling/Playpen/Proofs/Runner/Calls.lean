import Playpen.Proofs.Runner.Behaviour

namespace Playpen

variable {τ : Type}

namespace PlaneCall

inductive Op
  | connect
  | create
  | inject
  | exec
  | terminate
  | isRunning
  | memoryUsage
  | remove
  | close
deriving DecidableEq

def op : PlaneCall τ → Op
  | connect .. => .connect
  | create .. => .create
  | inject .. => .inject
  | exec .. => .exec
  | terminate .. => .terminate
  | isRunning .. => .isRunning
  | memoryUsage .. => .memoryUsage
  | remove .. => .remove
  | close .. => .close

def Only (ops : List Op) (calls : List (PlaneCall τ)) : Prop := ∀ c ∈ calls, c.op ∈ ops

theorem Only.nil (ops : List Op) : Only ops ([] : List (PlaneCall τ)) := List.forall_mem_nil _

theorem Only.mono {ops more : List Op} {calls : List (PlaneCall τ)} (h : Only ops calls)
    (hs : ops ⊆ more) : Only more calls := fun c hc => hs (h c hc)

theorem Only.not_mem {ops : List Op} {calls : List (PlaneCall τ)} (h : Only ops calls)
    {c : PlaneCall τ} (hc : c.op ∉ ops) : c ∉ calls := fun hm => hc (h c hm)

theorem only_cons {ops : List Op} {c : PlaneCall τ} {calls : List (PlaneCall τ)} :
    Only ops (c :: calls) ↔ c.op ∈ ops ∧ Only ops calls := List.forall_mem_cons

theorem only_append {ops : List Op} {calls more : List (PlaneCall τ)} :
    Only ops (calls ++ more) ↔ Only ops calls ∧ Only ops more := List.forall_mem_append

end PlaneCall

namespace Runner

open PlaneCall

variable {r r' : Runner τ} {added : List (PlaneCall τ)}

theorem Creates.only {l : Link} {out : Except (Failure τ) EnvironmentId} (h : Creates l added out) :
    Only [.create] added := by
  cases h <;> simp [Only, op]

theorem Starts.only {out : Except (Failure τ) Unit} (h : Starts r added r' out) :
    Only [.create, .isRunning] added := by
  cases h with
  | up => exact .nil _
  | created _ _ hc | failed _ _ hc => exact hc.only.mono (by simp)
  | attached | absent => simp [Only, op]

theorem Requires.only {out : Except (Failure τ) EnvironmentId} (h : Requires r added r' out) :
    Only [.create, .isRunning] added := by
  cases h with
  | closed => exact .nil _
  | up _ hs | down _ hs => exact hs.only

theorem Opens.only {settings : Settings τ} {key : SessionKey} {out : Except (Failure τ) (Runner τ)}
    (h : Opens settings key added out) : Only [.connect, .create, .isRunning, .close] added := by
  cases h with
  | unconnected => simp [Only, op]
  | opened hs => exact only_cons.mpr ⟨by simp [op], hs.only.mono (by simp)⟩
  | failed hs =>
    exact only_cons.mpr ⟨by simp [op], only_append.mpr ⟨hs.only.mono (by simp), by simp [Only, op]⟩⟩

theorem Closes.only {out : Except (Failure τ) Unit} (h : Closes r added r' out) :
    Only [.remove, .close] added := by
  cases h <;> simp [Only, op]

variable [Seconds τ]

theorem Samples.only {out : Except (Failure τ) Int} (h : Samples r added out) :
    Only [.memoryUsage] added := by
  cases h <;> simp [Only, op]

theorem Verifies.only {out : Except (Failure τ) Unit} (h : Verifies r added r' out) :
    Only [.isRunning, .remove, .create] added := by
  cases h with
  | trusted => exact .nil _
  | alive | unreachable | gone | stuck => simp [Only, op]
  | unreplaced _ _ _ _ hc | replaced _ _ _ _ hc =>
    exact only_cons.mpr ⟨by simp [op], only_cons.mpr ⟨by simp [op], hc.only.mono (by simp)⟩⟩

theorem Readies.only {out : Except (Failure τ) EnvironmentId} (h : Readies r added r' out) :
    Only [.isRunning, .remove, .create] added := by
  cases h with
  | unverified hv => exact hv.only
  | verified hv hq => exact only_append.mpr ⟨hv.only, hq.only.mono (by simp)⟩

theorem Execs.only {id : EnvironmentId} {command : Command τ} {out : Except (Failure τ) Capture}
    (h : Execs r id command added r' out) : Only [.exec, .terminate] added := by
  cases h <;> simp [Only, op]

theorem Execs.exec_first {id : EnvironmentId} {command : Command τ} {out : Except (Failure τ) Capture}
    (h : Execs r id command added r' out) :
    ∃ reply after, added = .exec r.link id command reply :: after ∧ Only [.terminate] after := by
  cases h <;> exact ⟨_, _, rfl, by simp [Only, PlaneCall.op]⟩

theorem Runs.only {out : Except (Failure τ) RunOutcome} (h : Runs r added r' out) :
    Only [.isRunning, .remove, .create, .exec, .terminate] added := by
  cases h with
  | down hr | unready hr => exact hr.only.mono (by simp)
  | failed hr hx | finished hr hx =>
    exact only_append.mpr ⟨hr.only.mono (by simp), hx.only.mono (by simp)⟩

theorem Injects.only {source : Raw} {out : Except (Failure τ) Unit} (h : Injects source r added r' out) :
    Only [.create, .isRunning, .inject] added := by
  cases h with
  | down hq | unpacked hq => exact hq.only.mono (by simp)
  | delivered hq => exact only_append.mpr ⟨hq.only.mono (by simp), by simp [Only, op]⟩

theorem Attempts.only {source : Raw} {out : Except (Failure τ) RunOutcome}
    (h : Attempts source r added r' out) :
    Only [.create, .isRunning, .inject, .remove, .exec, .terminate] added := by
  cases h with
  | undelivered hi => exact hi.only.mono (by simp)
  | ran hi hr => exact only_append.mpr ⟨hi.only.mono (by simp), hr.only.mono (by simp)⟩

end Runner

end Playpen
