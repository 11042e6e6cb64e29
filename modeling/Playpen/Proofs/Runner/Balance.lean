import Playpen.Proofs.Runner.Calls

namespace Playpen.Runner

open PlaneCall (created? removed? connected? closed? Only)

variable {τ : Type}

def openLink (r : Runner τ) : List Link := if r.closed then [] else [r.link]

structure Balanced (r : Runner τ) (added : List (PlaneCall τ)) (r' : Runner τ) : Prop where
  environments (id : EnvironmentId) : r.environment.toList.count id + (added.filterMap created?).count id =
    (added.filterMap removed?).count id + r'.environment.toList.count id
  links (l : Link) : r.openLink.count l + (added.filterMap connected?).count l =
    (added.filterMap closed?).count l + r'.openLink.count l

theorem Balanced.refl (r : Runner τ) : Balanced r [] r := by
  constructor <;> intro x <;> simp

theorem Balanced.trans {a b c : Runner τ} {added more : List (PlaneCall τ)} (h : Balanced a added b)
    (h' : Balanced b more c) : Balanced a (added ++ more) c := by
  constructor
  · intro id
    have := h.environments id
    have := h'.environments id
    simp only [List.filterMap_append, List.count_append] at *
    omega
  · intro l
    have := h.links l
    have := h'.links l
    simp only [List.filterMap_append, List.count_append] at *
    omega

theorem Balanced.of_only {r r' : Runner τ} {added : List (PlaneCall τ)} (hk : Keeps r r')
    (he : r'.environment = r.environment)
    (ho : Only [.inject, .exec, .terminate, .isRunning, .memoryUsage] added) :
    Balanced r added r' := by
  have idle : ∀ c ∈ added, c.created? = none ∧ c.removed? = none ∧ c.connected? = none ∧
      c.closed? = none := by
    intro c hc
    have hop := ho c hc
    cases c <;> simp [PlaneCall.op] at hop ⊢
  have hc : added.filterMap created? = [] := List.filterMap_eq_nil_iff.mpr fun c hc => (idle c hc).1
  have hr : added.filterMap removed? = [] :=
    List.filterMap_eq_nil_iff.mpr fun c hc => (idle c hc).2.1
  have hl : added.filterMap connected? = [] :=
    List.filterMap_eq_nil_iff.mpr fun c hc => (idle c hc).2.2.1
  have hd : added.filterMap closed? = [] :=
    List.filterMap_eq_nil_iff.mpr fun c hc => (idle c hc).2.2.2
  constructor <;> intro x
  · simp [hc, hr, he]
  · simp [hl, hd, openLink, hk.closed, hk.link]

section

variable {r r' : Runner τ} {added : List (PlaneCall τ)}

theorem Creates.balanced {out : Except (Failure τ) EnvironmentId} (h : Creates r.link added out)
    (hn : r.environment = none) (b : Bool) :
    Balanced r added { r with environment := out.toOption, suspect := b } := by
  cases h <;> constructor <;> intro x <;> simp [List.filterMap_cons, hn, openLink, Except.toOption]

theorem Starts.balanced {out : Except (Failure τ) Unit} (h : Starts r added r' out)
    (ho : r.owns = true) : Balanced r added r' := by
  cases h with
  | up => exact .refl r
  | created hn _ hc => simpa [Except.toOption] using hc.balanced hn r.suspect
  | failed hn _ hc => simpa [Except.toOption, ← hn] using hc.balanced hn r.suspect
  | attached _ hn => simp [ho] at hn
  | absent _ hn => simp [ho] at hn

theorem Starts.of_error {e : Failure τ} (h : Starts r added r' (.error e)) : r' = r := by
  cases h <;> rfl

theorem Requires.balanced {out : Except (Failure τ) EnvironmentId} (h : Requires r added r' out)
    (ho : r.owns = true) : Balanced r added r' := by
  cases h with
  | closed => exact .refl r
  | up _ hs | down _ hs => exact hs.balanced ho

theorem balanced_of_removal {id : EnvironmentId} {reply : Except (Failure τ) Unit}
    (he : r.environment = some id) : Balanced r
      [.isRunning r.link id (.ok false), .remove r.link id reply] { r with environment := none } := by
  constructor <;> intro x <;> simp [List.filterMap_cons, he, openLink]

theorem Closes.balanced {out : Except (Failure τ) Unit} (h : Closes r added r' out)
    (ho : r.owns = true) (hc : r.closed = false) :
    Balanced r added r' ∧ r'.closed = true ∧ r'.environment = none := by
  cases h with
  | already h => simp [hc] at h
  | bare _ hn =>
    have he : r.environment = none := hn.resolve_left (by simp [ho])
    refine ⟨?_, rfl, he⟩
    constructor <;> intro x <;> simp [List.filterMap_cons, openLink, hc]
  | removed _ _ he =>
    refine ⟨?_, rfl, rfl⟩
    constructor <;> intro x <;> simp [List.filterMap_cons, openLink, hc, he]

variable [Seconds τ]

theorem Injects.balanced {source : Raw} {out : Except (Failure τ) Unit}
    (h : Injects source r added r' out) (ho : r.owns = true) : Balanced r added r' := by
  cases h with
  | down hq | unpacked hq => exact hq.balanced ho
  | delivered hq =>
    exact (hq.balanced ho).trans (.of_only (.refl r') rfl (by simp [Only, PlaneCall.op]))

theorem Verifies.balanced {out : Except (Failure τ) Unit} (h : Verifies r added r' out) :
    Balanced r added r' := by
  cases h with
  | trusted => exact .refl r
  | alive | unreachable | gone => exact .of_only ⟨rfl, rfl, rfl, rfl⟩ rfl (by simp [Only, PlaneCall.op])
  | stuck _ he => exact balanced_of_removal he
  | unreplaced _ he _ _ hc =>
    exact (balanced_of_removal he).trans
      (Creates.balanced (r := { r with environment := none }) hc rfl r.suspect)
  | replaced _ he _ _ hc =>
    exact (balanced_of_removal he).trans
      (Creates.balanced (r := { r with environment := none }) hc rfl false)

theorem Readies.balanced {out : Except (Failure τ) EnvironmentId} (h : Readies r added r' out)
    (ho : r.owns = true) : Balanced r added r' := by
  cases h with
  | unverified hv => exact hv.balanced
  | verified hv hq => exact hv.balanced.trans (hq.balanced (hv.keeps.owns.trans ho))

theorem Execs.balanced {id : EnvironmentId} {command : Command τ} {out : Except (Failure τ) Capture}
    (h : Execs r id command added r' out) : Balanced r added r' :=
  .of_only h.keeps h.environment (h.only.mono (by simp))

theorem Runs.balanced {out : Except (Failure τ) RunOutcome} (h : Runs r added r' out)
    (ho : r.owns = true) : Balanced r added r' := by
  cases h with
  | down hr | unready hr => exact hr.balanced ho
  | failed hr hx | finished hr hx => exact (hr.balanced ho).trans hx.balanced

theorem Asks.balanced {α : Type} {out : Except (Failure τ) α} (h : Asks r added r' out)
    (ho : r.owns = true) : Balanced r added r' := by
  cases h with
  | down hr | unready hr => exact hr.balanced ho
  | asked hr => exact (hr.balanced ho).trans (.of_only (.refl r') rfl (by simp [Only, PlaneCall.op]))

theorem Acts.balanced (h : Acts r added r') (ho : r.owns = true) : Balanced r added r' := by
  cases h with
  | inject h => exact h.balanced ho
  | run h => exact h.balanced ho
  | ask h => exact h.balanced ho
  | sample h hr =>
    subst hr
    exact .of_only (.refl r') rfl (h.only.mono (by simp))

end

end Playpen.Runner
