import Playpen.Proofs.Runner.Attached
import Playpen.Proofs.Runner.Calls

namespace Playpen

open PlaneCall (Only created?)

variable {ω τ : Type}

structure PlaneCall.Confined (P : EnvironmentId → Prop) (added : List (PlaneCall τ)) (P' : EnvironmentId → Prop) :
    Prop where
  named : ∀ c ∈ added, ∀ id, c.environment? = some id → id ∈ added.filterMap created? ∨ P id
  held : ∀ id, P' id → id ∈ added.filterMap created? ∨ P id

namespace PlaneCall.Confined

variable {P P' P'' Q Q' : EnvironmentId → Prop} {added more : List (PlaneCall τ)}

theorem refl (P : EnvironmentId → Prop) : Confined (τ := τ) P [] P :=
  ⟨List.forall_mem_nil _, fun _ h => .inr h⟩

theorem trans (h : Confined P added P') (h' : Confined P' more P'') : Confined P (added ++ more) P'' := by
  have first {id : EnvironmentId} (hid : id ∈ added.filterMap created? ∨ P id) :
      id ∈ (added ++ more).filterMap created? ∨ P id := by
    refine hid.imp_left fun hmade => ?_
    rw [List.filterMap_append]
    exact List.mem_append_left _ hmade
  have later {id : EnvironmentId} (hid : id ∈ more.filterMap created? ∨ P' id) :
      id ∈ (added ++ more).filterMap created? ∨ P id := by
    rcases hid with hmade | hheld
    · left
      rw [List.filterMap_append]
      exact List.mem_append_right _ hmade
    · exact first (h.held id hheld)
  constructor
  · intro c hc id hid
    rcases List.mem_append.mp hc with hc | hc
    · exact first (h.named c hc id hid)
    · exact later (h'.named c hc id hid)
  · exact fun id hid => later (h'.held id hid)

theorem widen (h : Confined P added P') (hP : ∀ id, P id → Q id) (hQ : ∀ id, Q' id → P' id ∨ Q id) :
    Confined Q added Q' := by
  constructor
  · exact fun c hc id hid => (h.named c hc id hid).imp_right (hP id)
  · intro id hid
    rcases hQ id hid with hid | hid
    · exact (h.held id hid).imp_right (hP id)
    · exact .inr hid

theorem unnamed (hc : ∀ c ∈ added, c.environment? = none) (hP : ∀ id, P' id → P id) : Confined P added P' := by
  refine ⟨fun c hmem id hid => ?_, fun id hid => .inr (hP id hid)⟩
  cases (hc c hmem).symm.trans hid

end PlaneCall.Confined

namespace Runner

open PlaneCall (Confined)

abbrev Minds (r : Runner τ) (added : List (PlaneCall τ)) (r' : Runner τ) : Prop :=
  Confined (r.environment = some ·) added (r'.environment = some ·)

variable {r r' : Runner τ} {added : List (PlaneCall τ)}

theorem Minds.within {id : EnvironmentId} (he : r.environment = some id)
    (hc : ∀ c ∈ added, ∀ x, c.environment? = some x → x = id)
    (hr : ∀ x, r'.environment = some x → x = id) : Minds r added r' := by
  constructor
  · intro c hmem x hx
    right
    rw [he, hc c hmem x hx]
  · intro x hx
    right
    rw [he, hr x hx]

theorem Minds.kept {id : EnvironmentId} (he : r.environment = some id) (he' : r'.environment = some id)
    (hc : ∀ c ∈ added, ∀ x, c.environment? = some x → x = id) : Minds r added r' :=
  .within he hc fun _ hx => Option.some.inj (hx.symm.trans he')

theorem Minds.lost {id : EnvironmentId} (he : r.environment = some id) (he' : r'.environment = none)
    (hc : ∀ c ∈ added, ∀ x, c.environment? = some x → x = id) : Minds r added r' := by
  refine .within he hc fun x hx => ?_
  cases he'.symm.trans hx

theorem Creates.nameless {l : Link} {out : Except (Failure τ) EnvironmentId} (h : Creates l added out) :
    ∀ c ∈ added, c.environment? = none := by
  intro c hc
  have hop := h.only c hc
  cases c <;> simp [PlaneCall.op] at hop
  rfl

theorem Creates.failed {l : Link} {e : Failure τ} (h : Creates l added (.error e))
    (hr : r'.environment = r.environment) : Minds r added r' :=
  Confined.unnamed h.nameless fun _ hid => hr ▸ hid

theorem Creates.made {l : Link} {id : EnvironmentId} (h : Creates l added (.ok id))
    (hr : r'.environment = some id) : Minds r added r' := by
  refine ⟨fun c hc x hx => ?_, fun x hx => ?_⟩
  · cases (h.nameless c hc).symm.trans hx
  · cases hr.symm.trans hx
    cases h with
    | created => exact .inl List.mem_cons_self

theorem Starts.minds {out : Except (Failure τ) Unit} (h : Starts r added r' out) (ho : r.owns = true) :
    Minds r added r' := by
  cases h with
  | up => exact .refl _
  | created _ _ hc => exact hc.made rfl
  | failed _ _ hc => exact hc.failed rfl
  | attached _ hn | absent _ hn =>
    rw [ho] at hn
    cases hn

theorem Opens.minds {settings : Settings τ} {key : SessionKey} {out : Except (Failure τ) (Runner τ)}
    (h : Opens settings key added out) (ho : settings.ownsEnvironment = true) :
    Confined (fun _ => False) added fun id => ∃ q, out = .ok q ∧ q.environment = some id := by
  have hconnect (link : Link) : Confined (τ := τ) (fun _ => False) [.connect settings (.ok link)]
      fun id => none = some id := by
    apply Confined.unnamed (by simp [PlaneCall.environment?])
    intro id hid
    cases hid
  cases h with
  | unconnected =>
    apply Confined.unnamed (by simp [PlaneCall.environment?])
    rintro id ⟨q, hq, _⟩
    cases hq
  | @opened link made r hs =>
    apply ((hconnect link).trans (hs.minds ho)).widen (fun _ h => h)
    rintro id ⟨_, ⟨⟩, hid⟩
    exact .inl hid
  | @failed link made r e closing hs =>
    apply ((hconnect link).trans (hs.minds ho)).trans
    apply Confined.unnamed (by simp [PlaneCall.environment?])
    rintro id ⟨q, hq, _⟩
    cases closing <;> cases hq

theorem Requires.minds {out : Except (Failure τ) EnvironmentId} (h : Requires r added r' out)
    (ho : r.owns = true) : Minds r added r' := by
  cases h with
  | closed => exact .refl _
  | up _ hs | down _ hs => exact hs.minds ho

theorem Closes.minds {out : Except (Failure τ) Unit} (h : Closes r added r' out) : Minds r added r' := by
  cases h with
  | already => exact .refl _
  | bare => exact .unnamed (by simp [PlaneCall.environment?]) fun _ h => h
  | removed _ _ he => exact .lost he rfl (by simp [PlaneCall.environment?])

variable [Seconds τ]

theorem Samples.minds {out : Except (Failure τ) Int} (h : Samples r added out) : Minds r added r := by
  cases h with
  | down => exact .refl _
  | sampled he | unreadable he | unknown he | failed he =>
    exact .kept he he (by simp [PlaneCall.environment?])

theorem Injects.minds {source : Raw} {out : Except (Failure τ) Unit} (h : Injects source r added r' out)
    (ho : r.owns = true) : Minds r added r' := by
  cases h with
  | down hq | unpacked hq => exact hq.minds ho
  | delivered hq =>
    apply (hq.minds ho).trans
    exact Minds.kept hq.environment hq.environment (by simp [PlaneCall.environment?])

theorem Verifies.minds {out : Except (Failure τ) Unit} (h : Verifies r added r' out) : Minds r added r' := by
  cases h with
  | trusted => exact .refl _
  | alive _ he | unreachable _ he | gone _ he => exact .kept he he (by simp [PlaneCall.environment?])
  | stuck _ he => exact .lost he rfl (by simp [PlaneCall.environment?])
  | @unreplaced id reply made e _ he _ _ hc =>
    have hgone : Minds r [.isRunning r.link id (.ok false), .remove r.link id reply]
        { r with environment := none } := .lost he rfl (by simp [PlaneCall.environment?])
    exact hgone.trans (hc.failed rfl)
  | @replaced id reply made fresh _ he _ _ hc =>
    have hgone : Minds r [.isRunning r.link id (.ok false), .remove r.link id reply]
        { r with environment := none } := .lost he rfl (by simp [PlaneCall.environment?])
    exact hgone.trans (hc.made rfl)

theorem Readies.minds {out : Except (Failure τ) EnvironmentId} (h : Readies r added r' out)
    (ho : r.owns = true) : Minds r added r' := by
  cases h with
  | unverified hv => exact hv.minds
  | verified hv hq => exact hv.minds.trans (hq.minds (hv.keeps.owns.trans ho))

theorem Execs.minds {id : EnvironmentId} {command : Command τ} {out : Except (Failure τ) Capture}
    (h : Execs r id command added r' out) (he : r.environment = some id) : Minds r added r' := by
  refine .kept he (h.environment.trans he) ?_
  cases h <;> simp [PlaneCall.environment?]

theorem Runs.minds {out : Except (Failure τ) RunOutcome} (h : Runs r added r' out) (ho : r.owns = true) :
    Minds r added r' := by
  cases h with
  | down hr | unready hr => exact hr.minds ho
  | failed hr hx | finished hr hx => exact (hr.minds ho).trans (hx.minds hr.environment)

theorem Attempts.minds {source : Raw} {out : Except (Failure τ) RunOutcome} (h : Attempts source r added r' out)
    (ho : r.owns = true) : Minds r added r' := by
  cases h with
  | undelivered hi => exact hi.minds ho
  | ran hi hr => exact (hi.minds ho).trans (hr.minds (hi.keeps.owns.trans ho))

theorem Asks.minds {α : Type} {out : Except (Failure τ) α} (h : Asks r added r' out) (ho : r.owns = true) :
    Minds r added r' := by
  cases h with
  | down hr | unready hr => exact hr.minds ho
  | asked hr =>
    apply (hr.minds ho).trans
    exact Minds.kept hr.environment hr.environment (by simp [PlaneCall.environment?])

end Runner

end Playpen
