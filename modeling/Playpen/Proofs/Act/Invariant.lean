import Playpen.Proofs.Act

namespace Playpen.Act

open Recording (calls)

variable {σ ρ ε α β γ : Type}

def Preserves (I : σ → Prop) (x : Act σ ε α) : Prop := ∀ s, I s → I (x s).2

namespace Preserves

variable {I : σ → Prop} {x : Act σ ε α}

theorem lift (r : Except ε α) : Preserves I (Act.lift r) := fun _ h => h

theorem pure (a : α) : Preserves I (pure a : Act σ ε α) := fun _ h => h

theorem throw (e : ε) : Preserves I (throw e : Act σ ε α) := fun _ h => h

theorem read (f : σ → α) : Preserves I (Act.read f : Act σ ε α) := fun _ h => h

theorem bind {f : α → Act σ ε β} (hx : Preserves I x) (hf : ∀ a, Preserves I (f a)) : Preserves I (x >>= f) := by
  intro s hs
  have hs' := hx s hs
  rcases hxs : x s with ⟨e | a, s'⟩ <;> rw [hxs] at hs'
  · rw [bind_error hxs]
    exact hs'
  · rw [bind_ok hxs]
    exact hf a s' hs'

theorem ite {p : Prop} [Decidable p] {y : Act σ ε α} (hx : p → Preserves I x) (hy : ¬ p → Preserves I y) :
    Preserves I (if p then x else y) := by
  by_cases h : p
  · rw [if_pos h]
    exact hx h
  · rw [if_neg h]
    exact hy h

theorem rescue {handler : ε → Act σ ε α} (hx : Preserves I x) (hh : ∀ e, Preserves I (handler e)) :
    Preserves I (tryCatch x handler) := by
  intro s hs
  have hs' := hx s hs
  rcases hxs : x s with ⟨e | a, s'⟩ <;> rw [hxs] at hs'
  · rw [rescue_error hxs]
    exact hh e s' hs'
  · rw [rescue_ok hxs]
    exact hs'

theorem outcome (hx : Preserves I x) : Preserves I x.outcome := hx

theorem ensure {final : Act σ ε Unit} (hx : Preserves I x) (hfinal : Preserves I final) :
    Preserves I (x.ensure final) := by
  intro s hs
  have hs' := hfinal _ (hx s hs)
  rcases hf : final (x s).2 with ⟨_ | _, s'⟩ <;> rw [hf] at hs' <;> simp only [Act.ensure, hf]
  · exact hs'
  · exact hs'

end Preserves

variable [Recording σ γ] [Recording ρ γ]

/-- However the action ends, the invariant holds again and the calls are such as `Q` says; a value that it
gives is such as `V` says. -/
def Maintains (I : σ → Prop) (Q : γ → Prop) (x : Act σ ε α) (V : α → Prop) : Prop :=
  ∀ s, I s → Does x s fun r added s' => I s' ∧ (∀ a, r = .ok a → V a) ∧ ∀ c ∈ added, Q c

variable {I : σ → Prop} {Q : γ → Prop} {x : Act σ ε α} {V : α → Prop} {W : β → Prop}

namespace Maintains

theorem mono {V' : α → Prop} (hx : Maintains I Q x V) (h : ∀ a, V a → V' a) : Maintains I Q x V' := by
  intro s hs
  refine (hx s hs).mono ?_
  rintro r added s' ⟨hs', hv, hadded⟩
  exact ⟨hs', fun a ha => h a (hv a ha), hadded⟩

theorem any (hx : Maintains I Q x V) : Maintains I Q x fun _ => True := hx.mono fun _ _ => trivial

theorem calls_eq (hx : Maintains I (fun _ : γ => False) x V) {s : σ} (hs : I s) :
    I (x s).2 ∧ calls (x s).2 = calls s := by
  obtain ⟨added, hc, hs', _, hadded⟩ := hx s hs
  rw [List.eq_nil_iff_forall_not_mem.mpr hadded, List.append_nil] at hc
  exact ⟨hs', hc⟩

theorem silent (hc : ∀ s, calls (x s).2 = calls s) (hs : ∀ s, I s → I (x s).2)
    (hv : ∀ s a, I s → (x s).1 = .ok a → V a) : Maintains I Q x V := by
  intro s h
  exact .of_eq rfl (hc s) ⟨hs s h, fun a ha => hv s a h ha, List.forall_mem_nil _⟩

theorem pure {a : α} (h : V a) : Maintains I Q (pure a : Act σ ε α) V := by
  refine .silent (fun _ => rfl) (fun _ h => h) ?_
  rintro s _ _ ⟨⟩
  exact h

theorem throw (e : ε) : Maintains I Q (throw e : Act σ ε α) V :=
  .silent (fun _ => rfl) (fun _ h => h) nofun

theorem lift (r : Except ε α) (h : ∀ a, r = .ok a → V a) : Maintains I Q (Act.lift r : Act σ ε α) V :=
  .silent (fun _ => rfl) (fun _ h => h) fun _ a _ ha => h a ha

theorem read (f : σ → α) : Maintains I Q (Act.read f : Act σ ε α) fun a => ∃ s, I s ∧ a = f s := by
  refine .silent (fun _ => rfl) (fun _ h => h) ?_
  rintro s _ hs ⟨⟩
  exact ⟨s, hs, rfl⟩

theorem modify {f : σ → σ} (hc : ∀ s, calls (f s) = calls s) (hf : ∀ s, I s → I (f s)) :
    Maintains I Q (Act.modify f : Act σ ε Unit) fun _ => True :=
  .silent hc hf fun _ _ _ _ => trivial

theorem bind {f : α → Act σ ε β} (hx : Maintains I Q x V) (hf : ∀ a, V a → Maintains I Q (f a) W) :
    Maintains I Q (x >>= f) W := by
  intro s hs
  refine .bind (hx s hs) ?_ ?_
  · rintro a added s₁ ⟨hs₁, hv, hadded⟩
    refine (hf a (hv a rfl) s₁ hs₁).mono ?_
    rintro r more s₂ ⟨hs₂, hw, hmore⟩
    exact ⟨hs₂, hw, List.forall_mem_append.mpr ⟨hadded, hmore⟩⟩
  · rintro e added s₁ ⟨hs₁, _, hadded⟩
    exact ⟨hs₁, nofun, hadded⟩

theorem ite {p : Prop} [Decidable p] {y : Act σ ε α} (hx : p → Maintains I Q x V)
    (hy : ¬ p → Maintains I Q y V) : Maintains I Q (if p then x else y) V := by
  by_cases h : p
  · rw [if_pos h]
    exact hx h
  · rw [if_neg h]
    exact hy h

theorem rescue {handler : ε → Act σ ε α} (hx : Maintains I Q x V)
    (hh : ∀ e, Maintains I Q (handler e) V) : Maintains I Q (tryCatch x handler) V := by
  intro s hs
  refine .rescue (hx s hs) (fun _ _ _ h => h) ?_
  rintro e added s₁ ⟨hs₁, _, hadded⟩
  refine (hh e s₁ hs₁).mono ?_
  rintro r more s₂ ⟨hs₂, hv, hmore⟩
  exact ⟨hs₂, hv, List.forall_mem_append.mpr ⟨hadded, hmore⟩⟩

theorem ensure {final : Act σ ε Unit} {U : Unit → Prop} (hx : Maintains I Q x V)
    (hfinal : Maintains I Q final U) : Maintains I Q (x.ensure final) V := by
  intro s hs
  refine .ensure (hx s hs) ?_
  rintro r added s₁ ⟨hs₁, hv, hadded⟩
  refine (hfinal s₁ hs₁).mono ?_
  rintro last more s₂ ⟨hs₂, _, hmore⟩
  refine ⟨hs₂, fun a ha => ?_, List.forall_mem_append.mpr ⟨hadded, hmore⟩⟩
  cases last with
  | ok _ => exact hv a ha
  | error _ => cases ha

theorem outcome (hx : Maintains I Q x V) : Maintains I Q x.outcome fun r => ∀ a, r = .ok a → V a := by
  intro s hs
  refine (Does.outcome (hx s hs)).mono ?_
  rintro _ added s₁ ⟨r, rfl, hs₁, hv, hadded⟩
  refine ⟨hs₁, ?_, hadded⟩
  rintro _ ⟨⟩
  exact hv

end Maintains

end Playpen.Act
