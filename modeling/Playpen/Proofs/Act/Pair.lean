import Playpen.Act
/-!
Two actions side by side: from states that belong together they come to states that belong together,
and to outcomes that do.
-/
namespace Playpen.Act

variable {σ ρ ε α α' β β' : Type}

inductive Agree (F : ε → ε → Prop) (V : α → α' → Prop) : Except ε α → Except ε α' → Prop
  | ok {a a'} (h : V a a') : Agree F V (.ok a) (.ok a')
  | error {e e'} (h : F e e') : Agree F V (.error e) (.error e')

theorem Agree.refl {F : ε → ε → Prop} (hf : ∀ e, F e e) (r : Except ε α) : Agree F Eq r r := by
  cases r with
  | ok _ => exact .ok rfl
  | error e => exact .error (hf e)

theorem Agree.eq {r r' : Except ε α} (h : Agree Eq Eq r r') : r = r' := by
  cases h with
  | ok h => rw [h]
  | error h => rw [h]

theorem Agree.mono {F G : ε → ε → Prop} {V W : α → α' → Prop} {r : Except ε α} {r' : Except ε α'}
    (h : Agree F V r r') (hf : ∀ e e', F e e' → G e e') (hv : ∀ a a', V a a' → W a a') :
    Agree G W r r' := by
  cases h with
  | ok h => exact .ok (hv _ _ h)
  | error h => exact .error (hf _ _ h)

def InStep (S : σ → σ → Prop) (F : ε → ε → Prop) (V : α → α' → Prop) (x : Act σ ε α)
    (x' : Act σ ε α') : Prop :=
  ∀ s s', S s s' → Agree F V (x s).1 (x' s').1 ∧ S (x s).2 (x' s').2

variable {S : σ → σ → Prop} {F : ε → ε → Prop} {V : α → α' → Prop} {W : β → β' → Prop}
  {x : Act σ ε α} {x' : Act σ ε α'}

namespace InStep

theorem mono {G : ε → ε → Prop} {V' : α → α' → Prop} (h : InStep S F V x x')
    (hf : ∀ e e', F e e' → G e e') (hv : ∀ a a', V a a' → V' a a') : InStep S G V' x x' := by
  intro s s' hs
  exact ⟨(h s s' hs).1.mono hf hv, (h s s' hs).2⟩

theorem lift {r : Except ε α} {r' : Except ε α'} (h : Agree F V r r') : InStep S F V (lift r) (lift r') :=
  fun _ _ hs => ⟨h, hs⟩

theorem lift_refl (r : Except ε α) : InStep S Eq Eq (Act.lift r) (Act.lift r) := lift (.refl (fun _ => rfl) r)

theorem pure {a : α} {a' : α'} (h : V a a') : InStep S F V (pure a : Act σ ε α) (pure a') := lift (.ok h)

theorem throw {e e' : ε} (h : F e e') : InStep S F V (throw e : Act σ ε α) (throw e') := lift (.error h)

theorem read {f : σ → α} {f' : σ → α'} (h : ∀ s s', S s s' → V (f s) (f' s')) :
    InStep S F V (read f : Act σ ε α) (read f') := fun s s' hs => ⟨.ok (h s s' hs), hs⟩

theorem modify {f f' : σ → σ} (h : ∀ s s', S s s' → S (f s) (f' s')) :
    InStep S F (fun _ _ => True) (modify f : Act σ ε Unit) (modify f') :=
  fun s s' hs => ⟨.ok trivial, h s s' hs⟩

theorem bind {f : α → Act σ ε β} {f' : α' → Act σ ε β'} (hx : InStep S F V x x')
    (hf : ∀ a a', V a a' → InStep S F W (f a) (f' a')) : InStep S F W (x >>= f) (x' >>= f') := by
  intro s s' hs
  obtain ⟨hr, ht⟩ := hx s s' hs
  show Agree F W (Act.bind x f s).1 (Act.bind x' f' s').1 ∧ S (Act.bind x f s).2 (Act.bind x' f' s').2
  rcases h : x s with ⟨r, t⟩
  rcases h' : x' s' with ⟨r', t'⟩
  rw [h, h'] at hr ht
  simp only [Act.bind, h, h']
  cases hr with
  | ok hv => exact hf _ _ hv t t' ht
  | error he => exact ⟨.error he, ht⟩

theorem ite {p p' : Prop} [Decidable p] [Decidable p'] {y : Act σ ε α} {y' : Act σ ε α'} (hp : p ↔ p')
    (hx : p → InStep S F V x x') (hy : ¬ p → InStep S F V y y') :
    InStep S F V (if p then x else y) (if p' then x' else y') := by
  by_cases h : p
  · rw [if_pos h, if_pos (hp.mp h)]
    exact hx h
  · rw [if_neg h, if_neg (mt hp.mpr h)]
    exact hy h

theorem rescue {handler : ε → Act σ ε α} {handler' : ε → Act σ ε α'} (hx : InStep S F V x x')
    (hh : ∀ e e', F e e' → InStep S F V (handler e) (handler' e')) :
    InStep S F V (tryCatch x handler) (tryCatch x' handler') := by
  intro s s' hs
  obtain ⟨hr, ht⟩ := hx s s' hs
  show Agree F V (Act.rescue x handler s).1 (Act.rescue x' handler' s').1 ∧
    S (Act.rescue x handler s).2 (Act.rescue x' handler' s').2
  rcases h : x s with ⟨r, t⟩
  rcases h' : x' s' with ⟨r', t'⟩
  rw [h, h'] at hr ht
  simp only [Act.rescue, h, h']
  cases hr with
  | ok hv => exact ⟨.ok hv, ht⟩
  | error he => exact hh _ _ he t t' ht

theorem ensure {final final' : Act σ ε Unit} {U : Unit → Unit → Prop} (hx : InStep S F V x x')
    (hfinal : InStep S F U final final') : InStep S F V (x.ensure final) (x'.ensure final') := by
  intro s s' hs
  obtain ⟨hr, ht⟩ := hx s s' hs
  obtain ⟨hlast, hu⟩ := hfinal _ _ ht
  simp only [Act.ensure]
  rcases h : final (x s).2 with ⟨r, u⟩
  rcases h' : final' (x' s').2 with ⟨r', u'⟩
  rw [h, h'] at hlast hu
  cases hlast with
  | ok _ => exact ⟨hr, hu⟩
  | error he => exact ⟨.error he, hu⟩

theorem outcome {G : ε → ε → Prop} (hx : InStep S F V x x') :
    InStep S G (Agree F V) x.outcome x'.outcome :=
  fun s s' hs => ⟨.ok (hx s s' hs).1, (hx s s' hs).2⟩

theorem within {R : ρ → ρ → Prop} {part : σ → ρ} {put : ρ → σ → σ} {y : Act ρ ε α} {y' : Act ρ ε α'}
    (hpart : ∀ s s', S s s' → R (part s) (part s'))
    (hput : ∀ s s' p p', S s s' → R p p' → S (put p s) (put p' s')) (hy : InStep R F V y y') :
    InStep S F V (Act.within part put y) (Act.within part put y') := by
  intro s s' hs
  obtain ⟨hr, hp⟩ := hy _ _ (hpart s s' hs)
  exact ⟨hr, hput s s' _ _ hs hp⟩

end InStep

end Playpen.Act
