import Playpen.Config.Object
import Playpen.Proofs.Act.Invariant
import Playpen.Proofs.Config.Validation
/-!
Loading a configuration again. Configurations are changed in place, but never one that was there before: loading
changes new objects only, and the manager refers to them at the end. So nothing is lost where it fails.
-/
namespace Playpen.Config

open Act (Preserves)

namespace Heap

structure Keeps (h h' : Heap) : Prop where
  sandboxes : h.sandboxes <+: h'.sandboxes
  toolchains : h.toolchains <+: h'.toolchains
  objects : h.objects <+: h'.objects

def Behind (h h' : Heap) (r : Ref) : Prop :=
  ∀ o, h'.objects[r]? = some o →
    h.objects.length ≤ r ∧ h.sandboxes.length ≤ o.sandbox ∧ h.toolchains.length ≤ o.toolchain

variable {h h' : Heap} {r : Ref}

theorem Keeps.refl (h : Heap) : h.Keeps h := ⟨List.prefix_rfl, List.prefix_rfl, List.prefix_rfl⟩

theorem getElem?_of_prefix {α : Type} {l l' : List α} (hl : l <+: l') {i : Nat} {a : α} (ha : l[i]? = some a) :
    l'[i]? = some a := by
  obtain ⟨hi, rfl⟩ := List.getElem?_eq_some_iff.mp ha
  exact List.prefix_iff_getElem?.mp hl i hi

theorem prefix_set {α : Type} {l l' : List α} (hl : l <+: l') {i : Nat} (hi : l.length ≤ i) (a : α) :
    l <+: l'.set i a := by
  obtain ⟨t, rfl⟩ := hl
  rw [List.set_append_right i a hi]
  exact List.prefix_append _ _

theorem Keeps.config? (hk : h.Keeps h') {c : Config} (hc : h.config? r = some c) : h'.config? r = some c := by
  obtain ⟨o, ho, hs, ht, hfields⟩ := config?_eq_some_iff.mp hc
  apply config?_eq_some_iff.mpr
  exact ⟨o, getElem?_of_prefix hk.objects ho, getElem?_of_prefix hk.sandboxes hs,
    getElem?_of_prefix hk.toolchains ht, hfields⟩

theorem keeps_make (h : Heap) (c : Config) : h.Keeps (h.make c) :=
  ⟨List.prefix_append _ _, List.prefix_append _ _, List.prefix_append _ _⟩

theorem behind_make (h : Heap) (c : Config) : h.Behind (h.make c) h.fresh := by
  intro o ho
  rw [make, fresh, List.getElem?_concat_length] at ho
  cases ho
  exact ⟨Nat.le_refl _, Nat.le_refl _, Nat.le_refl _⟩

theorem Keeps.change (hk : h.Keeps h') (hb : h.Behind h' r) (f : Config → Config) : h.Keeps (h'.change r f) := by
  unfold Heap.change
  split
  next o c ho _ =>
    obtain ⟨hr, hs, ht⟩ := hb o ho
    exact ⟨prefix_set hk.sandboxes hs _, prefix_set hk.toolchains ht _, prefix_set hk.objects hr _⟩
  next => exact hk

theorem Behind.change (hb : h.Behind h' r) (f : Config → Config) : h.Behind (h'.change r f) r := by
  unfold Heap.change
  split
  next o c ho _ =>
    intro o' ho'
    rw [write, List.getElem?_set_self (List.getElem?_eq_some_iff.mp ho).1] at ho'
    cases ho'
    exact hb o ho
  next => exact hb

theorem config?_change {c : Config} (hc : h.config? r = some c) (f : Config → Config) :
    (h.change r f).config? r = some (f c) := by
  obtain ⟨o, ho, hs, ht, -⟩ := config?_eq_some_iff.mp hc
  rw [change_eq ho hc]
  apply config?_eq_some_iff.mpr
  refine ⟨_, List.getElem?_set_self (List.getElem?_eq_some_iff.mp ho).1, ?_, ?_, rfl, rfl, rfl⟩
  · exact List.getElem?_set_self (List.getElem?_eq_some_iff.mp hs).1
  · exact List.getElem?_set_self (List.getElem?_eq_some_iff.mp ht).1

end Heap

namespace Store

variable {files : Tree} {vars : Variables} {s s' : Store} {r : Ref} {f : Fault}

structure Works (s : Store) (r : Ref) (s' : Store) : Prop where
  keeps : s.heap.Keeps s'.heap
  behind : s.heap.Behind s'.heap r
  current : s'.current = s.current
  path : s'.path = s.path

theorem noted_works {α : Type} (x : Noted α) : Preserves (Works s r) (noted x) :=
  fun _ h => ⟨h.keeps, h.behind, h.current, h.path⟩

theorem change_works (f : Config → Config) : Preserves (Works s r) (change r f) :=
  fun _ h => ⟨h.keeps.change h.behind f, h.behind.change f, h.current, h.path⟩

theorem assign_works {α : Type} (value : Option α) (read : α → Except Misuse Value) (set : Value → Config → Config) :
    Preserves (Works s r) (assign r value read set) := by
  cases value with
  | none => exact .pure ()
  | some a =>
    have hused : Preserves (Works s r) (Act.used (read a) : Handling Value) := .lift _
    exact hused.bind fun v => change_works (set v)

theorem overrideLimits_works : Preserves (Works s r) (overrideLimits vars r) := by
  apply (noted_works _).bind
  intro ms
  apply (assign_works ms _ _).bind
  intro _
  apply (noted_works _).bind
  intro megabytes
  apply (assign_works megabytes _ _).bind
  intro _
  exact (noted_works _).bind fun size => assign_works size _ _

theorem overrideTexts_works (xs : List TextVariable) : Preserves (Works s r) (overrideTexts vars r xs) := by
  induction xs with
  | nil => exact .pure ()
  | cons x rest ih => exact (assign_works _ _ _).bind fun _ => ih

theorem override_works : Preserves (Works s r) (override vars r) := by
  refine .bind overrideLimits_works fun _ => .bind (overrideTexts_works _) fun _ => .bind (.read _) fun c? => ?_
  cases c? with
  | none => exact .throw _
  | some c => exact .lift _

theorem produce_apply (files : Tree) (s : Store) : produce files s =
    match isThere files s.path with
    | .error f => (.error f, s)
    | .ok false => make {} { s with log := s.log ++ [⟨.debug, s!"No configuration at {s.path.text}; using defaults"⟩] }
    | .ok true =>
      match Config.load files s.path s.log with
      | (.error f, log) => (.error f, { s with log })
      | (.ok c, log) => make c { s with log } := by
  have hpath : (Act.read Store.path : Handling Path) s = (.ok s.path, s) := rfl
  rw [produce, Act.bind_ok hpath]
  rcases isThere files s.path with f | (_ | _)
  · rfl
  · rfl
  · show (noted (Config.load files s.path) >>= make) s = _
    rcases hload : Config.load files s.path s.log with ⟨f | c, log⟩
    · have hnoted : noted (Config.load files s.path) s = (.error f, { s with log }) := by
        rw [noted, Act.within, hload]
      exact Act.bind_error hnoted
    · have hnoted : noted (Config.load files s.path) s = (.ok c, { s with log }) := by
        rw [noted, Act.within, hload]
      exact Act.bind_ok hnoted

theorem make_works (c : Config) (s : Store) (log : List Record) :
    make c { s with log } = (.ok s.heap.fresh, (make c { s with log }).2) ∧
      Works s s.heap.fresh (make c { s with log }).2 :=
  ⟨rfl, s.heap.keeps_make c, s.heap.behind_make c, rfl, rfl⟩

structure Reflects (r : Ref) (x : Except Fault Unit × Store) (y : Except Fault Config × List Record) : Prop where
  out : x.1 = y.1.map fun _ => ()
  log : x.2.log = y.2
  stands : ∀ c, y.1 = .ok c → x.2.heap.config? r = some c

def Mirrors (r : Ref) (x : Handling Unit) (y : Config → Noted Config) : Prop :=
  ∀ s c, s.heap.config? r = some c → Reflects r (x s) (y c s.log)

def placed {α : Type} (value : Option α) (read : α → Except Misuse Value) (set : Value → Config → Config)
    (c : Config) : Noted Config :=
  match value with
  | some a => do
    let v ← Act.used (read a)
    pure (set v c)
  | none => pure c

theorem placed_bind {α : Type} (value : Option α) (read : α → Except Misuse Value) (set : Value → Config → Config)
    (c : Config) (k : Config → Noted Config) : placed value read set c >>= k =
      match value with
      | some a => Act.used (read a) >>= fun v => k (set v c)
      | none => k c := by
  cases value with
  | none => rfl
  | some a => rw [placed, bind_assoc]; rfl

namespace Mirrors

variable {x x' : Handling Unit} {y y' : Config → Noted Config}

theorem bind (hx : Mirrors r x y) (hx' : Mirrors r x' y') :
    Mirrors r (x >>= fun _ => x') fun c => y c >>= y' := by
  intro s c hc
  show Reflects r ((x >>= fun _ => x') s) ((y c >>= y') s.log)
  have h := hx s c hc
  rcases hy : y c s.log with ⟨f | c₁, log⟩ <;> rcases hxs : x s with ⟨g | _, s₁⟩ <;> rw [hy, hxs] at h
  · rw [Act.bind_error hxs, Act.bind_error hy]
    cases h.out
    exact ⟨rfl, h.log, nofun⟩
  · cases h.out
  · cases h.out
  · obtain rfl : s₁.log = log := h.log
    rw [Act.bind_ok hxs, Act.bind_ok hy]
    exact hx' s₁ c₁ (h.stands c₁ rfl)

theorem noted {α : Type} (z : Noted α) {k : α → Handling Unit} {l : α → Config → Noted Config}
    (h : ∀ a, Mirrors r (k a) (l a)) : Mirrors r (noted z >>= k) fun c => z >>= fun a => l a c := by
  intro s c hc
  show Reflects r ((Store.noted z >>= k) s) ((z >>= fun a => l a c) s.log)
  rcases hz : z s.log with ⟨f | a, log⟩
  · have hnoted : Store.noted z s = (.error f, { s with log }) := by rw [Store.noted, Act.within, hz]
    rw [Act.bind_error hnoted, Act.bind_error hz]
    exact ⟨rfl, rfl, fun _ h => by cases h⟩
  · have hnoted : Store.noted z s = (.ok a, { s with log }) := by rw [Store.noted, Act.within, hz]
    rw [Act.bind_ok hnoted, Act.bind_ok hz]
    exact h a { s with log } c hc

theorem assign {α : Type} (value : Option α) (read : α → Except Misuse Value) (set : Value → Config → Config) :
    Mirrors r (assign r value read set) (placed value read set) := by
  intro s c hc
  cases value with
  | none => exact ⟨rfl, rfl, fun _ h => by cases h; exact hc⟩
  | some a =>
    cases hv : read a with
    | error m =>
      simp only [Store.assign, placed, hv]
      exact ⟨rfl, rfl, fun _ h => by cases h⟩
    | ok v =>
      simp only [Store.assign, placed, hv]
      exact ⟨rfl, rfl, fun _ h => by cases h; exact Heap.config?_change hc (set v)⟩

end Mirrors

theorem overrideTexts_mirrors (vars : Variables) (xs : List TextVariable) :
    Mirrors r (overrideTexts vars r xs) fun c => pure (xs.foldl (fun c x => match nonempty? vars x.name with
      | some text => x.set (.text (x.read text)) c
      | none => c) c) := by
  induction xs with
  | nil => exact fun s c hc => ⟨rfl, rfl, fun _ h => by cases h; exact hc⟩
  | cons x rest ih =>
    have h := (Mirrors.assign (r := r) (nonempty? vars x.name) (.ok ∘ .text ∘ x.read) x.set).bind ih
    intro s c hc
    have hs := h s c hc
    simp only [overrideTexts, List.foldl_cons]
    cases hx : nonempty? vars x.name with
    | none =>
      rw [hx] at hs
      exact hs
    | some text =>
      rw [hx] at hs
      exact hs

theorem used_bind (v : Value) (k : Value → Noted Config) : Act.used (.ok v) >>= k = k v := rfl

theorem withVariables_placed (vars : Variables) : withVariables vars = fun c => (do
    let ms ← integerVariable? vars "MAX_EXECUTION_TIME"
    let c ← placed ms secondsOfMillis (fun v c => { c with sandbox := { c.sandbox with maxExecutionTime := v } }) c
    let megabytes ← integerVariable? vars "MAX_MEMORY"
    let c ← placed megabytes (.ok ∘ .int) (fun v c => { c with sandbox := { c.sandbox with memoryLimit := v } }) c
    let size ← integerVariable? vars "MAX_CODE_SIZE"
    let c ← placed size (.ok ∘ .int) (fun v c => { c with maxCodeSize := v }) c
    pure (applyText vars c)) := by
  funext c
  simp only [withVariables, placed_bind, pure_bind, Function.comp_apply, used_bind]
  apply bind_congr
  rintro (_ | ms)
  · apply bind_congr
    rintro (_ | megabytes) <;> apply bind_congr <;> rintro (_ | size) <;> rfl
  · apply bind_congr
    intro limit
    apply bind_congr
    rintro (_ | megabytes) <;> apply bind_congr <;> rintro (_ | size) <;> rfl

theorem overrides_mirror (vars : Variables) :
    Mirrors r (overrideLimits vars r >>= fun _ => overrideTexts vars r textVariables) (withVariables vars) := by
  simp only [withVariables_placed, overrideLimits, bind_assoc]
  apply Mirrors.noted
  intro ms
  apply (Mirrors.assign ms secondsOfMillis _).bind
  apply Mirrors.noted
  intro megabytes
  apply (Mirrors.assign megabytes (.ok ∘ .int) _).bind
  apply Mirrors.noted
  intro size
  apply (Mirrors.assign size (.ok ∘ .int) _).bind
  exact overrideTexts_mirrors vars textVariables

theorem override_mirrors (vars : Variables) : Mirrors r (override vars r) (overridden vars) := by
  unfold override
  rw [← bind_assoc]
  apply (overrides_mirror vars).bind
  intro s c hc
  have hread : (Act.read (·.heap.config? r) : Handling (Option Config)) s = (.ok (some c), s) := by
    rw [Act.read, hc]
  rw [Act.bind_ok hread]
  show Reflects r (Act.lift (validate c) s) ((Act.lift (validate c) >>= fun _ => pure c) s.log)
  cases validate c with
  | error f => exact ⟨rfl, rfl, fun _ h => by cases h⟩
  | ok _ => exact ⟨rfl, rfl, fun _ h => by cases h; exact hc⟩

theorem manager_eq (hk : s.heap.Keeps s'.heap) (hcurrent : s'.current = s.current) (hpath : s'.path = s.path) :
    s'.manager = s.manager := by
  unfold manager
  rw [hcurrent, hpath]
  congr 1
  cases hr : s.current with
  | none => rfl
  | some r =>
    obtain ⟨c, hc⟩ := Option.isSome_iff_exists.mp (s.held r hr)
    rw [Option.bind_some, Option.bind_some, hc, hk.config? hc]

theorem adopt_eq (hr : (s.heap.config? r).isSome) :
    ∃ h, adopt r s = (.ok (), { s with current := some r, held := h }) := by
  unfold adopt
  rw [dif_pos hr]
  exact ⟨_, rfl⟩

structure Agrees (s : Store) (x : Except Fault Ref × Store) (y : Except Fault Manager × List Record) : Prop where
  log : x.2.log = y.2
  failed : ∀ f, y.1 = .error f →
    x.1 = .error f ∧ s.heap.Keeps x.2.heap ∧ x.2.current = s.current ∧ x.2.path = s.path
  loaded : ∀ m, y.1 = .ok m → ∃ r, x.1 = .ok r ∧ x.2.current = some r ∧ x.2.manager = m

theorem unproduced_agrees (f : Fault) (s : Store) (log : List Record) :
    Agrees s (.error f, { s with log }) (.error f, log) := by
  refine ⟨rfl, ?_, nofun⟩
  rintro _ ⟨⟩
  exact ⟨rfl, .refl s.heap, rfl, rfl⟩

theorem produced_agrees {s₁ : Store} {c : Config} (hw : Works s r s₁) (hc : s₁.heap.config? r = some c) :
    Agrees s ((override vars r >>= fun _ => adopt r >>= fun _ => pure r) s₁)
      ((overridden vars c >>= fun c => pure { s.manager with current := some c }) s₁.log) := by
  have h := override_mirrors vars s₁ c hc
  have h₂ : Works s r (override vars r s₁).2 := override_works s₁ hw
  rcases hoverridden : overridden vars c s₁.log with ⟨f | c', log⟩ <;>
    rcases hoverride : override vars r s₁ with ⟨g | _, s₂⟩ <;> rw [hoverridden, hoverride] at h <;>
    rw [hoverride] at h₂
  · rw [Act.bind_error hoverride, Act.bind_error hoverridden]
    cases h.out
    refine ⟨h.log, ?_, nofun⟩
    rintro _ ⟨⟩
    exact ⟨rfl, h₂.keeps, h₂.current, h₂.path⟩
  · cases h.out
  · cases h.out
  · obtain rfl : s₂.log = log := h.log
    have hc' := h.stands c' rfl
    obtain ⟨hheld, hadopt⟩ := adopt_eq (Option.isSome_of_eq_some hc')
    rw [Act.bind_ok hoverride, Act.bind_ok hadopt, Act.bind_ok hoverridden]
    refine ⟨rfl, nofun, ?_⟩
    rintro _ ⟨⟩
    refine ⟨r, rfl, rfl, ?_⟩
    show (⟨s₂.path, s₂.heap.config? r⟩ : Manager) = ⟨s.path, some c'⟩
    rw [hc', h₂.path]

theorem load_agrees (files : Tree) (vars : Variables) (s : Store) :
    Agrees s (load files vars s) (s.manager.load files vars s.log) := by
  unfold load Manager.load Manager.read
  rw [bind_assoc]
  have hproduce := produce_apply files s
  have hpath : s.manager.path = s.path := rfl
  rw [hpath]
  rcases hthere : isThere files s.path with f | (_ | _) <;> rw [hthere] at hproduce
  · rw [Act.bind_error hproduce]
    exact unproduced_agrees f s s.log
  · rw [Act.bind_ok hproduce]
    exact produced_agrees (make_works {} s _).2 (Heap.config?_make_fresh {} s.heap)
  · have hask : (Act.lift (.ok true) : Noted Bool) s.log = (.ok true, s.log) := rfl
    rw [Act.bind_ok hask, if_pos rfl, bind_assoc]
    rcases hload : Config.load files s.path s.log with ⟨f | c, log⟩ <;> rw [hload] at hproduce
    · rw [Act.bind_error hproduce, Act.bind_error hload]
      exact unproduced_agrees f s log
    · rw [Act.bind_ok hproduce, Act.bind_ok hload]
      exact produced_agrees (make_works c s log).2 (Heap.config?_make_fresh c s.heap)

def answer (files : Tree) (vars : Variables) (s : Store) : Except Fault (Option Config) × List Record × Manager :=
  let (r, s') := config files vars s
  (r.map s'.heap.config?, s'.log, s'.manager)

theorem answer_eq (files : Tree) (vars : Variables) (s : Store) :
    s.answer files vars = match s.manager.ensureLoaded files vars s.log with
      | (.ok m, log) => (.ok m.current, log, m)
      | (.error f, log) => (.error f, log, s.manager) := by
  have hread : (Act.read Store.current : Handling (Option Ref)) s = (.ok s.current, s) := rfl
  unfold answer config Manager.ensureLoaded
  rw [Act.bind_ok hread]
  cases hcurrent : s.current with
  | some r =>
    obtain ⟨c, hc⟩ := Option.isSome_iff_exists.mp (s.held r hcurrent)
    have hm : s.manager.current = some c := by rw [manager, hcurrent, Option.bind_some, hc]
    rw [hm, Option.isSome_some, if_pos rfl]
    show (_, s.log, s.manager) = (_, s.log, s.manager)
    rw [Except.map, hc, hm]
  | none =>
    have hm : s.manager.current = none := by rw [manager, hcurrent, Option.bind_none]
    rw [hm, Option.isSome_none, if_neg Bool.false_ne_true]
    have h := load_agrees files vars s
    dsimp only
    generalize load files vars s = x, s.manager.load files vars s.log = y at h ⊢
    obtain ⟨out, s'⟩ := x
    obtain ⟨f | m, log⟩ := y
    · obtain ⟨rfl, hkeeps, hsame, hpath⟩ := h.failed f rfl
      obtain rfl : s'.log = log := h.log
      show (_, s'.log, s'.manager) = _
      rw [manager_eq hkeeps hsame hpath]
      rfl
    · obtain ⟨r, rfl, hr, rfl⟩ := h.loaded m rfl
      obtain rfl : s'.log = log := h.log
      have hcurrent' : s'.manager.current = s'.heap.config? r := by rw [manager, hr, Option.bind_some]
      exact congrArg (fun c? => (Except.ok c?, s'.log, s'.manager)) hcurrent'.symm

theorem failed_load_changes_nothing (h : load files vars s = (.error f, s')) :
    s'.current = s.current ∧
      s.heap.Keeps s'.heap ∧
      (∀ r c, s.heap.config? r = some c → s'.heap.config? r = some c) ∧
      s'.save = s.save ∧
      ∀ files' vars' log, ({ s' with log } : Store).answer files' vars' =
        ({ s with log } : Store).answer files' vars' := by
  have hagrees := load_agrees files vars s
  rw [h] at hagrees
  obtain ⟨hkeeps, hcurrent, hpath⟩ : s.heap.Keeps s'.heap ∧ s'.current = s.current ∧ s'.path = s.path := by
    cases hload : (s.manager.load files vars s.log).1 with
    | error g => exact (hagrees.failed g hload).2
    | ok m =>
      obtain ⟨r, hr, -⟩ := hagrees.loaded m hload
      cases hr
  have hmanager := manager_eq hkeeps hcurrent hpath
  refine ⟨hcurrent, hkeeps, fun r c => hkeeps.config?, ?_, fun files' vars' log => ?_⟩
  · unfold save
    rw [hmanager]
  · rw [answer_eq, answer_eq]
    have hsame : ({ s' with log } : Store).manager = ({ s with log } : Store).manager := hmanager
    rw [hsame]

def ready : Store where
  path := ⟨"", ["c.json"]⟩
  heap := Heap.make {} {}
  current := some 0
  held := by rintro _ ⟨⟩; rfl

-- The variables change the new configuration before its check fails.
theorem failed_load_changes_nothing_ready :
    let x := load {} [("SANDBOX_IMAGE", "other"), ("MAX_MEMORY", "0")] ready
    x.1 = .error (.configuration "sandbox.memory_limit_mb must be positive") ∧
      x.2.heap.objects.length = 2 ∧ x.2.heap.config? 0 = some {} ∧ x.2.current = some 0 := by
  have h : load {} [("SANDBOX_IMAGE", "other"), ("MAX_MEMORY", "0")] ready =
    (.error (.configuration "sandbox.memory_limit_mb must be positive"),
      (load {} [("SANDBOX_IMAGE", "other"), ("MAX_MEMORY", "0")] ready).2) := rfl
  obtain ⟨hcurrent, -, hconfig, -⟩ := failed_load_changes_nothing h
  exact ⟨rfl, rfl, hconfig 0 {} rfl, hcurrent⟩

end Store

end Playpen.Config
