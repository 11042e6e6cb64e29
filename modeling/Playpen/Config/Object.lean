import Playpen.Config.Manager
/-!
Configurations as objects that are changed in place. A configuration refers to the objects of its two sections, and
whoever refers to an object sees every change of it. The manager refers to the configuration in force; loading makes
new objects, changes those, and refers to them only once they have passed their checks.
-/
namespace Playpen.Config

abbrev Ref : Type := Nat

structure Object where
  name : Value
  sandbox : Ref
  toolchain : Ref
  maxCodeSize : Value
  logLevel : Value

structure Heap where
  sandboxes : List Sandbox := []
  toolchains : List Toolchain := []
  objects : List Object := []

namespace Heap

def config? (h : Heap) (r : Ref) : Option Config :=
  h.objects[r]?.bind fun o =>
    h.sandboxes[o.sandbox]?.bind fun sandbox =>
      h.toolchains[o.toolchain]?.map fun toolchain =>
        { name := o.name, sandbox, toolchain, maxCodeSize := o.maxCodeSize, logLevel := o.logLevel }

def fresh (h : Heap) : Ref := h.objects.length

def make (c : Config) (h : Heap) : Heap where
  sandboxes := h.sandboxes ++ [c.sandbox]
  toolchains := h.toolchains ++ [c.toolchain]
  objects := h.objects ++ [⟨c.name, h.sandboxes.length, h.toolchains.length, c.maxCodeSize, c.logLevel⟩]

def write (r : Ref) (o : Object) (c : Config) (h : Heap) : Heap where
  sandboxes := h.sandboxes.set o.sandbox c.sandbox
  toolchains := h.toolchains.set o.toolchain c.toolchain
  objects := h.objects.set r { o with name := c.name, maxCodeSize := c.maxCodeSize, logLevel := c.logLevel }

def change (r : Ref) (f : Config → Config) (h : Heap) : Heap :=
  match h.objects[r]?, h.config? r with
  | some o, some c => h.write r o (f c)
  | _, _ => h

variable {h : Heap} {r r' : Ref} {c : Config} {o : Object}

theorem config?_eq_some_iff : h.config? r = some c ↔
    ∃ o, h.objects[r]? = some o ∧ h.sandboxes[o.sandbox]? = some c.sandbox ∧
      h.toolchains[o.toolchain]? = some c.toolchain ∧
      o.name = c.name ∧ o.maxCodeSize = c.maxCodeSize ∧ o.logLevel = c.logLevel := by
  simp only [config?, Option.bind_eq_some_iff, Option.map_eq_some_iff]
  constructor
  · rintro ⟨o, ho, sandbox, hs, toolchain, ht, rfl⟩
    exact ⟨o, ho, hs, ht, rfl, rfl, rfl⟩
  · rintro ⟨o, ho, hs, ht, hname, hsize, hlevel⟩
    refine ⟨o, ho, c.sandbox, hs, c.toolchain, ht, ?_⟩
    rw [hname, hsize, hlevel]

theorem isSome_config? : (h.config? r).isSome ↔ ∃ o, h.objects[r]? = some o ∧
    o.sandbox < h.sandboxes.length ∧ o.toolchain < h.toolchains.length := by
  simp [config?, Option.isSome_bind, Option.any_eq_true, ← Option.isSome_iff_exists]

theorem change_eq (ho : h.objects[r]? = some o) (hc : h.config? r = some c) (f : Config → Config) :
    h.change r f = h.write r o (f c) := by
  unfold change
  rw [ho, hc]

theorem config?_make_fresh (c : Config) (h : Heap) : (h.make c).config? h.fresh = some c := by
  apply config?_eq_some_iff.mpr
  simp [make, fresh]

theorem isSome_config?_make (hr : (h.config? r).isSome) (c : Config) : ((h.make c).config? r).isSome := by
  obtain ⟨o, ho, hs, ht⟩ := isSome_config?.mp hr
  refine isSome_config?.mpr ⟨o, ?_, ?_, ?_⟩
  · rw [make, List.getElem?_append_left (List.getElem?_eq_some_iff.mp ho).1, ho]
  · rw [make, List.length_append]
    exact Nat.lt_add_right _ hs
  · rw [make, List.length_append]
    exact Nat.lt_add_right _ ht

theorem isSome_config?_change (hr : (h.config? r').isSome) (r : Ref) (f : Config → Config) :
    ((h.change r f).config? r').isSome := by
  unfold change
  split
  next o c ho _ =>
    obtain ⟨o', ho', hs, ht⟩ := isSome_config?.mp hr
    apply isSome_config?.mpr
    simp only [write, List.length_set, List.getElem?_set]
    by_cases h : r = r'
    · subst h
      cases ho.symm.trans ho'
      have hlt := (List.getElem?_eq_some_iff.mp ho).1
      rw [if_pos rfl, if_pos hlt]
      exact ⟨_, rfl, hs, ht⟩
    · exact ⟨o', by rw [if_neg h, ho'], hs, ht⟩
  next => exact hr

end Heap

structure Store where
  path : Path
  heap : Heap := {}
  current : Option Ref := none
  log : List Record := []
  held : ∀ r, current = some r → (heap.config? r).isSome := by simp

namespace Store

abbrev Handling (α : Type) : Type := Act Store Fault α

def noted {α : Type} (x : Noted α) : Handling α := Act.within Store.log (fun log s => { s with log }) x

def make (c : Config) : Handling Ref := fun s =>
  (.ok s.heap.fresh,
    { s with heap := s.heap.make c, held := fun r h => Heap.isSome_config?_make (s.held r h) c })

def change (r : Ref) (f : Config → Config) : Handling Unit :=
  Act.modify fun s =>
    { s with heap := s.heap.change r f, held := fun r' h => Heap.isSome_config?_change (s.held r' h) r f }

def adopt (r : Ref) : Handling Unit := fun s =>
  if h : (s.heap.config? r).isSome then
    (.ok (), { s with current := some r, held := fun r' h' => by cases h'; exact h })
  else (.error (.other .lookup none), s)

def assign {α : Type} (r : Ref) (value : Option α) (read : α → Except Misuse Value)
    (set : Value → Config → Config) : Handling Unit :=
  match value with
  | some a => do
    let v ← Act.used (read a)
    change r (set v)
  | none => pure ()

def overrideLimits (vars : Variables) (r : Ref) : Handling Unit := do
  let ms ← noted (integerVariable? vars "MAX_EXECUTION_TIME")
  assign r ms secondsOfMillis fun v c => { c with sandbox := { c.sandbox with maxExecutionTime := v } }
  let megabytes ← noted (integerVariable? vars "MAX_MEMORY")
  assign r megabytes (.ok ∘ .int) fun v c => { c with sandbox := { c.sandbox with memoryLimit := v } }
  let size ← noted (integerVariable? vars "MAX_CODE_SIZE")
  assign r size (.ok ∘ .int) fun v c => { c with maxCodeSize := v }

def overrideTexts (vars : Variables) (r : Ref) : List TextVariable → Handling Unit
  | [] => pure ()
  | x :: rest => do
    assign r (nonempty? vars x.name) (.ok ∘ .text ∘ x.read) x.set
    overrideTexts vars r rest

/-- Puts the variables of the process over a configuration, one after another, and then checks it. What was
changed before a failure stays changed. -/
def override (vars : Variables) (r : Ref) : Handling Unit := do
  overrideLimits vars r
  overrideTexts vars r textVariables
  match ← Act.read (·.heap.config? r) with
  | some c => Act.lift (validate c)
  | none => throw (.other .lookup none)

def produce (files : Tree) : Handling Ref := do
  let path ← Act.read Store.path
  if ← Act.lift (isThere files path) then
    let c ← noted (Config.load files path)
    make c
  else
    noted (Act.modify (· ++ [⟨.debug, s!"No configuration at {path.text}; using defaults"⟩]))
    make {}

def load (files : Tree) (vars : Variables) : Handling Ref := do
  let r ← produce files
  override vars r
  adopt r
  pure r

def config (files : Tree) (vars : Variables) : Handling Ref := do
  match ← Act.read Store.current with
  | some r => pure r
  | none => load files vars

def manager (s : Store) : Manager where
  path := s.path
  current := s.current.bind s.heap.config?

def save (s : Store) : Act Tree Fault (List Char) := s.manager.save

end Store

end Playpen.Config
