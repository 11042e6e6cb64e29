import Playpen.Act

namespace Playpen

class Recording (σ : Type) (γ : outParam Type) where
  calls : σ → List γ

namespace Act

variable {σ ρ ε α β γ : Type}

theorem bind_ok {x : Act σ ε α} {f : α → Act σ ε β} {s s' : σ} {a : α} (h : x s = (.ok a, s')) :
    (x >>= f) s = f a s' := by
  show Act.bind x f s = _
  simp only [Act.bind, h]

theorem bind_error {x : Act σ ε α} {f : α → Act σ ε β} {s s' : σ} {e : ε}
    (h : x s = (.error e, s')) : (x >>= f) s = (.error e, s') := by
  show Act.bind x f s = _
  simp only [Act.bind, h]

theorem rescue_ok {x : Act σ ε α} {handler : ε → Act σ ε α} {s s' : σ} {a : α} (h : x s = (.ok a, s')) :
    tryCatch x handler s = (.ok a, s') := by
  show Act.rescue x handler s = _
  simp only [Act.rescue, h]

theorem rescue_error {x : Act σ ε α} {handler : ε → Act σ ε α} {s s' : σ} {e : ε}
    (h : x s = (.error e, s')) : tryCatch x handler s = handler e s' := by
  show Act.rescue x handler s = _
  simp only [Act.rescue, h]

theorem ok_of_bind {x : Act σ ε α} {f : α → Act σ ε β} {s s' : σ} {b : β}
    (h : (x >>= f) s = (.ok b, s')) : ∃ a t, x s = (.ok a, t) ∧ f a t = (.ok b, s') := by
  rcases hx : x s with ⟨e | a, t⟩
  · rw [bind_error hx] at h
    cases h
  · rw [bind_ok hx] at h
    exact ⟨a, t, rfl, h⟩

variable [Recording σ γ] [Recording ρ γ]

open Recording (calls)

/-- From a state, an action adds calls to the record and ends with an outcome, in a state, such as
`P` says. -/
def Does (x : Act σ ε α) (s : σ) (P : Except ε α → List γ → σ → Prop) : Prop :=
  ∃ added, calls (x s).2 = calls s ++ added ∧ P (x s).1 added (x s).2

section

variable {x : Act σ ε α} {s : σ} {P : Except ε α → List γ → σ → Prop}

theorem Does.of_eq {r : Except ε α} {t : σ} (h : x s = (r, t)) (hc : calls t = calls s)
    (hp : P r [] t) : Does x s P :=
  ⟨[], by simp [h, hc], by simpa [h] using hp⟩

theorem Does.pure {a : α} (h : P (.ok a) [] s) : Does (pure a) s P := .of_eq rfl rfl h

theorem Does.throw {e : ε} (h : P (.error e) [] s) : Does (throw e) s P := .of_eq rfl rfl h

theorem Does.mono {weak : Except ε α → List γ → σ → Prop} (h : Does x s P)
    (hp : ∀ r added s', P r added s' → weak r added s') : Does x s weak := by
  obtain ⟨added, hc, h⟩ := h
  exact ⟨added, hc, hp _ _ _ h⟩

theorem Does.also {Q : Except ε α → Prop} (h : Does x s P) (hq : Q (x s).1) :
    Does x s fun r added s' => Q r ∧ P r added s' := by
  obtain ⟨added, hc, h⟩ := h
  exact ⟨added, hc, hq, h⟩

theorem Does.bind {f : α → Act σ ε β} {M : Except ε α → List γ → σ → Prop}
    {P : Except ε β → List γ → σ → Prop} (hx : Does x s M)
    (hok : ∀ a added s', M (.ok a) added s' →
      Does (f a) s' fun r more s'' => P r (added ++ more) s'')
    (herror : ∀ e added s', M (.error e) added s' → P (.error e) added s') :
    Does (x >>= f) s P := by
  obtain ⟨added, hc, hm⟩ := hx
  rcases hxs : x s with ⟨e | a, s'⟩ <;> rw [hxs] at hc hm
  · exact ⟨added, by rw [bind_error hxs]; exact hc, by rw [bind_error hxs]; exact herror _ _ _ hm⟩
  · obtain ⟨more, hc', hm'⟩ := hok _ _ _ hm
    refine ⟨added ++ more, ?_, ?_⟩ <;> rw [bind_ok hxs]
    · rw [hc', hc, List.append_assoc]
    · exact hm'

theorem Does.step {f : α → Act σ ε β} {P : Except ε β → List γ → σ → Prop} {t : σ} {a : α}
    (hx : x s = (.ok a, t)) (hc : calls t = calls s) (h : Does (f a) t P) :
    Does (x >>= f) s P := by
  obtain ⟨added, hc', h⟩ := h
  refine ⟨added, ?_, ?_⟩ <;> rw [bind_ok hx]
  · rw [hc', hc]
  · exact h

theorem Does.stop {f : α → Act σ ε β} {P : Except ε β → List γ → σ → Prop} {t : σ} {e : ε}
    (hx : x s = (.error e, t)) (hc : calls t = calls s) (h : P (.error e) [] t) :
    Does (x >>= f) s P :=
  .of_eq (bind_error hx) hc h

theorem Does.bind_of_ok {f : α → Act σ ε β} {M : α → List γ → σ → Prop} {P : Except ε β → List γ → σ → Prop}
    (hx : Does x s fun out added s' => ∃ a, out = .ok a ∧ M a added s')
    (hok : ∀ a added s', M a added s' → Does (f a) s' fun r more s'' => P r (added ++ more) s'') :
    Does (x >>= f) s P := by
  refine .bind hx ?_ ?_
  · rintro a added s' ⟨_, ⟨⟩, hm⟩
    exact hok a added s' hm
  · rintro e added s' ⟨_, ⟨⟩, -⟩

theorem Does.bind_silent {f : α → Act σ ε β} {a : α} {I : σ → Prop} {P : Except ε β → List γ → σ → Prop}
    (hx : Does x s fun out added s' => out = .ok a ∧ added = [] ∧ I s') (hok : ∀ s', I s' → Does (f a) s' P) :
    Does (x >>= f) s P := by
  refine .bind hx ?_ ?_
  · rintro _ _ s' ⟨⟨⟩, rfl, hi⟩
    exact hok s' hi
  · rintro e added s' ⟨⟨⟩, -⟩

theorem Does.later {y : Act σ ε α} {s' : σ} {first : List γ} (h : x s = y s')
    (hc : calls s' = calls s ++ first)
    (hy : Does y s' fun r more s'' => P r (first ++ more) s'') : Does x s P := by
  obtain ⟨more, hc', hp⟩ := hy
  refine ⟨first ++ more, ?_, ?_⟩ <;> rw [h]
  · rw [hc', hc, List.append_assoc]
  · exact hp

theorem Does.rescue {handler : ε → Act σ ε α} {M : Except ε α → List γ → σ → Prop}
    (hx : Does x s M) (hok : ∀ a added s', M (.ok a) added s' → P (.ok a) added s')
    (herror : ∀ e added s', M (.error e) added s' →
      Does (handler e) s' fun r more s'' => P r (added ++ more) s'') :
    Does (tryCatch x handler) s P := by
  obtain ⟨added, hc, hm⟩ := hx
  rcases hxs : x s with ⟨e | a, s'⟩ <;> rw [hxs] at hc hm
  · obtain ⟨more, hc', hm'⟩ := herror _ _ _ hm
    refine ⟨added ++ more, ?_, ?_⟩ <;> rw [rescue_error hxs]
    · rw [hc', hc, List.append_assoc]
    · exact hm'
  · refine ⟨added, ?_, ?_⟩ <;> rw [rescue_ok hxs]
    · exact hc
    · exact hok _ _ _ hm

theorem Does.ensure {final : Act σ ε Unit} {M : Except ε α → List γ → σ → Prop}
    (hx : Does x s M)
    (hfinal : ∀ r added s', M r added s' →
      Does final s' fun last more s'' => P (last.bind fun _ => r) (added ++ more) s'') :
    Does (x.ensure final) s P := by
  obtain ⟨added, hc, hm⟩ := hx
  obtain ⟨more, hc', hm'⟩ := hfinal _ _ _ hm
  refine ⟨added ++ more, ?_, ?_⟩ <;>
    rcases hf : final (x s).2 with ⟨_ | _, _⟩ <;> rw [hf] at hc' hm' <;>
    simp only [Act.ensure, hf]
  · rw [hc', hc, List.append_assoc]
  · rw [hc', hc, List.append_assoc]
  · exact hm'
  · exact hm'

theorem Does.outcome (hx : Does x s P) :
    Does x.outcome s fun out added s' => ∃ r, out = .ok r ∧ P r added s' := by
  obtain ⟨added, hc, hp⟩ := hx
  exact ⟨added, hc, _, rfl, hp⟩

theorem Does.within {part : σ → ρ} {put : ρ → σ → σ} {y : Act ρ ε α}
    (hpart : calls (part s) = calls s) (hput : ∀ p, calls (put p s) = calls p)
    (hy : Does y (part s) fun r added p => P r added (put p s)) :
    Does (Act.within part put y) s P := by
  obtain ⟨added, hc, hp⟩ := hy
  exact ⟨added, by simpa only [Act.within, hput, hc] using congrArg (· ++ added) hpart, hp⟩

end

end Act

end Playpen
