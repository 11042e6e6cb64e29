/-!
Actions on a state that may fail. A failure keeps the state that was reached.
-/
namespace Playpen

def Act (σ ε α : Type) : Type := σ → Except ε α × σ

namespace Act

variable {σ ρ ε α β γ : Type}

protected def pure (a : α) : Act σ ε α := fun s => (.ok a, s)

protected def bind (x : Act σ ε α) (f : α → Act σ ε β) : Act σ ε β := fun s =>
  match x s with
  | (.ok a, s') => f a s'
  | (.error e, s') => (.error e, s')

def fail (e : ε) : Act σ ε α := fun s => (.error e, s)

def rescue (x : Act σ ε α) (handler : ε → Act σ ε α) : Act σ ε α := fun s =>
  match x s with
  | (.ok a, s') => (.ok a, s')
  | (.error e, s') => handler e s'

instance : Monad (Act σ ε) where
  pure := Act.pure
  bind := Act.bind

instance : MonadExceptOf ε (Act σ ε) where
  throw := fail
  tryCatch := rescue

instance : MonadStateOf σ (Act σ ε) where
  get := fun s => (.ok s, s)
  set s := fun _ => (.ok (), s)
  modifyGet f := fun s => let (a, s') := f s; (.ok a, s')

instance : Inhabited (Act σ ε Unit) := ⟨Act.pure ()⟩

def get : Act σ ε σ := fun s => (.ok s, s)

def read (f : σ → α) : Act σ ε α := fun s => (.ok (f s), s)

def modify (f : σ → σ) : Act σ ε Unit := fun s => (.ok (), f s)

def lift (r : Except ε α) : Act σ ε α := fun s => (r, s)

def outcome (x : Act σ ε α) : Act σ ε (Except ε α) := fun s =>
  let (r, s') := x s
  (.ok r, s')

/-- Runs `final` however the action ends; a failure of `final` takes the place of the outcome. -/
def ensure (x : Act σ ε α) (final : Act σ ε Unit) : Act σ ε α := fun s =>
  let (r, s') := x s
  match final s' with
  | (.ok _, s'') => (r, s'')
  | (.error e, s'') => (.error e, s'')

def within (part : σ → ρ) (put : ρ → σ → σ) (x : Act ρ ε α) : Act σ ε α := fun s =>
  let (r, p) := x (part s)
  (r, put p s)

theorem id_map (x : Act σ ε α) : id <$> x = x := by
  funext s
  show (match x s with | (.ok a, s') => _ | (.error e, s') => _) = x s
  rcases x s with ⟨_ | _, _⟩ <;> rfl

theorem bind_assoc (x : Act σ ε α) (f : α → Act σ ε β) (g : β → Act σ ε γ) :
    x >>= f >>= g = x >>= fun a => f a >>= g := by
  funext s
  show Act.bind (Act.bind x f) g s = Act.bind x (fun a => Act.bind (f a) g) s
  unfold Act.bind
  rcases x s with ⟨_ | _, _⟩ <;> rfl

instance : LawfulMonad (Act σ ε) :=
  LawfulMonad.mk' (Act σ ε) id_map (fun _ _ => rfl) bind_assoc

end Act

end Playpen
