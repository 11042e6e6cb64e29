import Mathlib.Data.Bool.AllAny
import Playpen.Proofs.Engine.Invariant
import Playpen.Proofs.Plane.Scripted
import Playpen.Proofs.Runner.History
import Playpen.Proofs.Text.Lines
import Playpen.Proofs.Text.Units

namespace Playpen

open Act (Does)

variable {ω τ : Type}

namespace Runner

def Follows (c : Char) : Prop := c.isAlphanum = true ∨ c = '_' ∨ c = '.' ∨ c = '-'

instance (c : Char) : Decidable (Follows c) := inferInstanceAs (Decidable (_ ∨ _))

def IsStem (s : List Char) : Prop := ∃ c rest, s = c :: rest ∧ c.isAlphanum = true ∧ ∀ d ∈ rest, Follows d

def IsName (s : List Char) : Prop := IsStem s ∧ 2 ≤ s.length

structure IsPlainKey (key : List Char) : Prop where
  nonempty : key ≠ []
  length_le : key.length ≤ 32
  follows : ∀ c ∈ key, Follows c
  head : ∀ c ∈ key.head?, c ≠ '-' ∧ c ≠ '.'
  last : ∀ c ∈ key.getLast?, c ≠ '-' ∧ c ≠ '.'

theorem isNameChar_iff (c : Char) : isNameChar c = true ↔ Follows c := by
  have hletters : c.isAlphanum = (c.isUpper || c.isLower || c.isDigit) := rfl
  have hupper : c.isUpper = true ↔ 'A' ≤ c ∧ c ≤ 'Z' := decide_eq_true_iff
  have hlower : c.isLower = (decide ('a' ≤ c) && decide (c ≤ 'z')) := rfl
  have hdigit : c.isDigit = (decide ('0' ≤ c) && decide (c ≤ '9')) := rfl
  simp only [isNameChar, Follows, hletters, hupper, hlower, hdigit, Bool.or_eq_true, Bool.and_eq_true,
    decide_eq_true_eq]
  tauto

theorem isEdge_eq_false_iff (c : Char) : isEdge c = false ↔ c ≠ '-' ∧ c ≠ '.' := by
  simp [isEdge]

theorem follows_slugChars (inRun : Bool) (s : List Char) : ∀ c ∈ slugChars inRun s, Follows c := by
  induction s generalizing inRun with
  | nil => exact List.forall_mem_nil _
  | cons c rest ih =>
    rw [slugChars]
    split
    · rename_i hc
      exact List.forall_mem_cons.mpr ⟨(isNameChar_iff c).mp hc, ih false⟩
    · split
      · exact ih true
      · exact List.forall_mem_cons.mpr ⟨.inr (.inr (.inr rfl)), ih true⟩

theorem slugChars_follows {s : List Char} (h : ∀ c ∈ s, Follows c) (inRun : Bool) : slugChars inRun s = s := by
  induction s generalizing inRun with
  | nil => rfl
  | cons c rest ih =>
    rw [List.forall_mem_cons] at h
    rw [slugChars, if_pos ((isNameChar_iff c).mpr h.1), ih h.2]

def body (key : List Char) : List Char :=
  let trimmed := Text.trimBy isEdge (slugChars false key)
  if trimmed.isEmpty then "session".toList else trimmed

theorem slug_eq (key : List Char) : slug key = (body key).take 32 := rfl

theorem body_ne_nil (key : List Char) : body key ≠ [] := by
  unfold body
  dsimp only
  split
  · decide
  · rename_i h
    exact List.isEmpty_eq_false_iff.mp (Bool.not_eq_true _ ▸ h)

theorem follows_body (key : List Char) : ∀ c ∈ body key, Follows c := by
  unfold body
  dsimp only
  split
  · have hall : "session".toList.all (fun c => Follows c) = true := by decide
    exact List.all_iff_forall_prop.mp hall
  · intro c hc
    obtain ⟨a, b, hparts, -, -⟩ := Text.trimBy_parts isEdge (slugChars false key)
    refine follows_slugChars false key c ?_
    rw [hparts]
    exact List.mem_append_left _ (List.mem_append_right _ hc)

theorem head_body (key : List Char) : ∀ c ∈ (body key).head?, isEdge c = false := by
  unfold body
  dsimp only
  split
  · rintro _ ⟨⟩
    rfl
  · exact fun c hc => Text.head?_trimBy hc

theorem body_plain {key : List Char} (h : IsPlainKey key) : body key = key := by
  have hself : Text.trimBy isEdge (slugChars false key) = key := by
    rw [slugChars_follows h.follows]
    exact Text.trimBy_eq_self (fun c hc => (isEdge_eq_false_iff c).mpr (h.head c hc))
      fun c hc => (isEdge_eq_false_iff c).mpr (h.last c hc)
  simp only [body, hself, List.isEmpty_eq_false_iff.mpr h.nonempty, Bool.false_eq_true, if_false]

theorem slug_plain {key : List Char} (h : IsPlainKey key) : slug key = key := by
  rw [slug_eq, body_plain h, List.take_of_length_le h.length_le]

theorem follows_slug (key : List Char) : ∀ c ∈ slug key, Follows c :=
  fun c hc => follows_body key c (List.mem_of_mem_take hc)

theorem length_slug_le (key : List Char) : (slug key).length ≤ 32 := by
  rw [slug_eq, List.length_take]
  exact Nat.min_le_left ..

theorem head?_slug (key : List Char) : (slug key).head? = (body key).head? := by
  rw [slug_eq, List.head?_take, if_neg (by decide)]

theorem slug_ne_nil (key : List Char) : slug key ≠ [] := by
  rw [slug_eq, ne_eq, List.take_eq_nil_iff]
  exact fun h => h.elim (by decide) (body_ne_nil key)

theorem head_slug (key : List Char) : ∀ c ∈ (slug key).head?, c ≠ '-' ∧ c ≠ '.' := by
  intro c hc
  rw [head?_slug] at hc
  exact (isEdge_eq_false_iff c).mp (head_body key c hc)

theorem follows_hex (width n : Nat) : ∀ c ∈ Text.hex width n, Follows c := by
  have hdigit : ∀ d < 16, Follows (Text.hexDigit d) := by decide
  rw [Text.hex_eq_map]
  exact List.forall_mem_map.mpr fun d hd => hdigit d (Text.nibbles_lt width n d hd)

theorem environmentName_eq (start key : String) (fresh : Nat) : (environmentName start key fresh).toList =
    start.toList ++ '-' :: (slug key.toList ++ '-' :: Text.hex 8 fresh) := by
  simp [environmentName, Text.hexText]

theorem isName_environmentName {start : String} (hstart : IsStem start.toList) (key : String) (fresh : Nat) :
    IsName (environmentName start key fresh).toList := by
  obtain ⟨c, rest, hcons, hc, hrest⟩ := hstart
  have hdash : Follows '-' := .inr (.inr (.inr rfl))
  have hafter : ∀ d ∈ rest ++ '-' :: (slug key.toList ++ '-' :: Text.hex 8 fresh), Follows d :=
    List.forall_mem_append.mpr ⟨hrest, List.forall_mem_cons.mpr ⟨hdash, List.forall_mem_append.mpr
      ⟨follows_slug key.toList, List.forall_mem_cons.mpr ⟨hdash, follows_hex 8 fresh⟩⟩⟩⟩
  rw [environmentName_eq, hcons]
  refine ⟨⟨c, _, rfl, hc, hafter⟩, ?_⟩
  simp
  omega

theorem hex_eq_of_environmentName_eq {start start' key key' : String} {fresh fresh' : Nat}
    (h : environmentName start key fresh = environmentName start' key' fresh') :
    Text.hex 8 fresh = Text.hex 8 fresh' := by
  have hlists := congrArg String.toList h
  rw [environmentName_eq, environmentName_eq] at hlists
  have hsplit (start key : String) (fresh : Nat) : start.toList ++ '-' :: (slug key.toList ++ '-' :: Text.hex 8 fresh) =
      (start.toList ++ '-' :: (slug key.toList ++ ['-'])) ++ Text.hex 8 fresh := by simp
  rw [hsplit, hsplit] at hlists
  exact (List.append_inj' hlists (by rw [Text.length_hex, Text.length_hex])).2

end Runner

namespace PlaneCall

def created : PlaneCall τ → Option (Value × Nat)
  | .create _ spec drawn _ => some (spec.name, drawn)
  | _ => none

/-- If the call creates an environment, its name is made of this beginning, this key and the number drawn for it. -/
def Names (start key : String) (c : PlaneCall τ) : Prop :=
  ∀ name drawn, c.created = some (name, drawn) → name = .text (Runner.environmentName start key drawn)

def Apart (c c' : PlaneCall τ) : Prop :=
  ∀ name drawn name' drawn', c.created = some (name, drawn) → c'.created = some (name', drawn') →
    Text.hexText 8 drawn ≠ Text.hexText 8 drawn' → name ≠ name'

variable {start start' key key' : String} {c c' : PlaneCall τ}

theorem names_of_created_eq_none (h : c.created = none) : c.Names start key := by
  intro name drawn hc
  cases h.symm.trans hc

theorem Names.apart (h : c.Names start key) (h' : c'.Names start' key') : c.Apart c' := by
  intro name drawn name' drawn' hc hc' hdigits heq
  rw [h name drawn hc, h' name' drawn' hc'] at heq
  have hnames : Runner.environmentName start key drawn = Runner.environmentName start' key' drawn' := by simpa using heq
  exact hdigits (congrArg String.ofList (Runner.hex_eq_of_environmentName_eq hnames))

end PlaneCall

namespace Runner

open PlaneCall (Names)

theorem nameParts_eq {r : Runner τ} {start start' key : String} (hstart : r.settings.containerPrefix = .text start)
    (h : r.nameParts = .ok (start', key)) : r.key = .text key ∧ start' = start := by
  unfold nameParts at h
  split at h
  · rename_i hkey
    rw [hstart] at h
    cases h
    exact ⟨hkey, rfl⟩
  · cases h

theorem recorded_names (plane : ControlPlane ω τ) {settings : Settings τ} {I : Runner τ → Prop}
    {Q : PlaneCall τ → Prop} (hI : Steady settings I) {start : String} (hstart : settings.containerPrefix = .text start)
    (hkey : ∀ r key, I r → r.key = .text key → ∀ c, c.Names start key → Q c)
    (hother : ∀ c, c.created = none → Q c) : plane.recorded.Besides settings I Q where
  toSteady := hI
  connect := calls_recorded fun _ => hother _ rfl
  create {r} hr {start' key} hn env := by
    have hstarts : r.settings.containerPrefix = .text start := by rw [hI.has hr, hstart]
    obtain ⟨hk, rfl⟩ := nameParts_eq hstarts hn
    refine (Env.does_create plane _ _ env).mono ?_
    rintro reply _ _ rfl
    refine List.forall_mem_singleton.mpr (hkey r key hr hk _ ?_)
    rintro _ _ ⟨⟩
    rfl
  inject _ _ _ := calls_recorded fun _ => hother _ rfl
  terminate _ _ := calls_recorded fun _ => hother _ rfl
  isRunning _ _ := calls_recorded fun _ => hother _ rfl
  memoryUsage _ _ := calls_recorded fun _ => hother _ rfl
  remove _ _ := calls_recorded fun _ => hother _ rfl
  close _ := calls_recorded fun _ => hother _ rfl

end Runner

section

variable [Seconds τ] [Clock ω τ] {plane : ControlPlane ω τ} {settings : Settings τ} {I : Runner τ → Prop}
  {Q : PlaneCall τ → Prop} (h : plane.recorded.Besides settings I Q)
  (hexec : ∀ l id command, Runner.Calls Q (plane.recorded.exec l id command))
include h hexec

theorem Use.act_upholds (u : Use ω τ) : Runner.Upholds I Q (u.act plane) fun _ => True := by
  have forget {α : Type} {V : α → Prop} {x : RunnerAct (Recorded ω τ) τ α} (hx : Runner.Upholds I Q x V) :
      Runner.Upholds I Q (x >>= fun _ => pure ()) fun _ => True := .bind hx fun _ _ => .pure trivial
  have hversion (timeout : Option τ) :
      Runner.Upholds I Q (Runner.toolchainVersion plane.recorded timeout) fun _ => True :=
    Runner.toolchainVersion_upholds h fun _ _ _ _ _ => hexec _ _ _
  cases u with
  | start => exact Runner.start_upholds h
  | inject source => exact Runner.inject_upholds h source
  | run sections deadline => exact forget (Runner.run_upholds h (fun _ _ _ _ _ => hexec _ _ _) sections deadline)
  | toolchainVersion timeout => exact forget (hversion timeout)
  | validateToolchain => exact .bind (hversion none) fun _ _ => .ite (fun _ => .throw _) fun _ => .pure trivial
  | memoryUsage => exact forget (Runner.memoryUsage_upholds h)
  | close => exact Runner.close_upholds h
  | outside change => exact .modify (fun _ => rfl) fun _ hs => hs

theorem Seat.after_upholds {s : Seat (Recorded ω τ) τ} (hs : I s.runner) (uses : List (Use ω τ)) :
    I (s.after plane uses).runner ∧
      ∃ added, (s.after plane uses).env.world.calls = s.env.world.calls ++ added ∧ ∀ c ∈ added, Q c := by
  induction uses using List.reverseRecOn with
  | nil => exact ⟨hs, [], (List.append_nil _).symm, List.forall_mem_nil _⟩
  | append_singleton uses u ih =>
    obtain ⟨hafter, added, hc, hadded⟩ := ih
    obtain ⟨more, hc', hu, _, hmore⟩ := Use.act_upholds h hexec u _ hafter
    rw [Seat.after_append]
    refine ⟨hu, added ++ more, ?_, List.forall_mem_append.mpr ⟨hadded, hmore⟩⟩
    rw [← List.append_assoc, ← hc]
    exact hc'

end

section

variable [Seconds τ] [Clock ω τ] (plane : ControlPlane ω τ) {settings : Settings τ} {start : String}
  (hstart : settings.containerPrefix = .text start)
include hstart

theorem runner_names (key : String) (link : Link) (env : Env ω τ) (uses : List (Use ω τ)) :
    ∀ c ∈ (Seat.after plane (Seat.new settings (.text key) link env) uses).env.world.calls, c.Names start key := by
  let I (r : Runner τ) : Prop := Runner.Has settings r ∧ r.key = .text key
  have hI : Runner.Steady settings I := ⟨fun h => h.1, fun _ h => h, fun _ h => h, fun _ h => h⟩
  have hother (c : PlaneCall τ) (h : c.created = none) : c.Names start key := PlaneCall.names_of_created_eq_none h
  have hbesides : plane.recorded.Besides settings I (PlaneCall.Names start key) := by
    refine Runner.recorded_names plane hI hstart (fun r key' hr hk c hc => ?_) hother
    cases hr.2.symm.trans hk
    exact hc
  have hnew : I (Seat.new settings (.text key) link env).runner := ⟨rfl, rfl⟩
  obtain ⟨-, added, hc, hadded⟩ := Seat.after_upholds hbesides
    (fun _ _ _ => Runner.calls_recorded fun _ => hother _ rfl) hnew uses
  rw [hc]
  exact hadded

theorem engine_names (e : Engine τ) (env : Env ω τ) (ops : List (Operation ω τ)) :
    ∀ c ∈ (history plane settings e env ops).env.world.calls, ∃ key, c.Names start key := by
  have hother (c : PlaneCall τ) (h : c.created = none) : ∃ key, c.Names start key :=
    ⟨"", PlaneCall.names_of_created_eq_none h⟩
  have hbesides : plane.recorded.Besides settings (Runner.Has settings) fun c => ∃ key, c.Names start key :=
    Runner.recorded_names plane (Runner.has_steady settings) hstart (fun _ key _ _ _ hc => ⟨key, hc⟩) hother
  have hconforms : Runner.Conforms plane settings (Runner.Has settings) fun c => ∃ key, c.Names start key :=
    .of_besides hbesides (fun _ _ => rfl) fun _ _ _ _ _ => Runner.calls_recorded fun _ => hother _ rfl
  exact (hconforms.history e env ops).calls

end

theorem Runner.createEnvironment_draws [Seconds τ] [Clock ω τ] (plane : ControlPlane ω τ) {start key : String}
    {s : Seat (Recorded ω τ) τ} (hstart : s.runner.settings.containerPrefix = .text start)
    (hkey : s.runner.key = .text key) :
    ∃ reply, (createEnvironment plane.recorded s).2.env.world.calls = s.env.world.calls ++
      [.create s.runner.link (spec s.runner.settings (environmentName start key (s.env.drawn + 1))) (s.env.drawn + 1)
        reply] := by
  have hparts : s.runner.nameParts = .ok (start, key) := by
    rw [nameParts, hkey, hstart]
    rfl
  let drawn : Seat (Recorded ω τ) τ := ⟨s.runner, { s.env with drawn := s.env.drawn + 1 }⟩
  let named := spec s.runner.settings (environmentName start key drawn.env.drawn)
  have hdoes : Does (createEnvironment plane.recorded) s fun _ added _ =>
      ∃ reply, added = [.create s.runner.link named drawn.env.drawn reply] := by
    refine .step (a := s.runner) rfl rfl (.step (t := s) (a := (start, key)) ?_ rfl ?_)
    · rw [hparts]
      rfl
    refine .step (t := drawn) (a := drawn.env.drawn) rfl rfl ?_
    refine .bind (Seat.does_effect (Env.does_timed (Env.does_create plane s.runner.link named drawn.env))) ?_ ?_
    · rintro id added s₁ ⟨hsame, rfl⟩
      have hsettings : Has s.runner.settings s₁.runner := congrArg Runner.settings hsame
      refine (Upholds.note_pure (Q := fun _ : PlaneCall τ => False) .info _ id s₁ hsettings).mono ?_
      rintro out more s₂ ⟨-, -, hmore⟩
      exact ⟨.ok id, by rw [List.eq_nil_iff_forall_not_mem.mpr hmore, List.append_nil]⟩
    · rintro e added s₁ ⟨-, rfl⟩
      exact ⟨.error e, rfl⟩
  obtain ⟨added, hc, reply, rfl⟩ := hdoes
  exact ⟨reply, hc⟩

open Runner (environmentName IsStem IsName IsPlainKey)

/-- Whatever a runner with a key is used for, the environments that it creates are named for the key, and those
that an engine creates are named for some key, each with the number drawn for it. All these names are ones that the
engine takes: between the configured beginning and the eight digits stands a part for the key, which is the key itself
if that may stand there. Different digits make different names, whatever the keys. -/
theorem created_names [Seconds τ] [Clock ω τ] (plane : ControlPlane ω τ) {settings : Settings τ} {start : String}
    (hsettings : settings.containerPrefix = .text start) (hstart : IsStem start.toList) :
    (∀ key link env uses, ∀ c ∈ (Seat.after plane (Seat.new settings (.text key) link env) uses).env.world.calls,
      c.Names start key) ∧
    (∀ e env ops, ∀ c ∈ (history plane settings e env ops).env.world.calls, ∃ key, c.Names start key) ∧
    (∀ key (s : Seat (Recorded ω τ) τ), s.runner.settings = settings → s.runner.key = .text key →
      ∃ spec reply, (Runner.createEnvironment plane.recorded s).2.env.world.calls =
        s.env.world.calls ++ [.create s.runner.link spec (s.env.drawn + 1) reply]) ∧
    (∀ key drawn, IsName (environmentName start key drawn).toList) ∧
    (∀ key, ∃ session : String,
      (∀ drawn, environmentName start key drawn = start ++ "-" ++ session ++ "-" ++ Text.hexText 8 drawn) ∧
        session ≠ "" ∧ session.length ≤ 32 ∧ (∀ c ∈ session.toList.head?, c ≠ '-' ∧ c ≠ '.') ∧
        (IsPlainKey key.toList → session = key)) ∧
    (∀ key link env uses, ∀ c ∈ (Seat.after plane (Seat.new settings (.text key) link env) uses).env.world.calls,
      ∀ key' link' env' uses',
        ∀ c' ∈ (Seat.after plane (Seat.new settings (.text key') link' env') uses').env.world.calls, c.Apart c') ∧
    ∀ e env ops, ∀ c ∈ (history plane settings e env ops).env.world.calls,
      ∀ e' env' ops', ∀ c' ∈ (history plane settings e' env' ops').env.world.calls, c.Apart c' := by
  have hrunner := runner_names plane hsettings
  have hengine := engine_names plane hsettings
  refine ⟨hrunner, hengine, ?_, Runner.isName_environmentName hstart, ?_, ?_, ?_⟩
  · intro key s hs hkey
    obtain ⟨reply, hcalls⟩ := Runner.createEnvironment_draws plane (hs ▸ hsettings) hkey
    exact ⟨_, reply, hcalls⟩
  · intro key
    refine ⟨String.ofList (Runner.slug key.toList), fun _ => rfl, ?_, ?_, ?_, ?_⟩
    · intro hempty
      exact Runner.slug_ne_nil key.toList (by simpa using hempty)
    · rw [String.length_ofList]
      exact Runner.length_slug_le key.toList
    · rw [String.toList_ofList]
      exact Runner.head_slug key.toList
    · intro hplain
      rw [Runner.slug_plain hplain, String.ofList_toList]
  · intro key link env uses c hc key' link' env' uses' c' hc'
    exact (hrunner key link env uses c hc).apart (hrunner key' link' env' uses' c' hc')
  · intro e env ops c hc e' env' ops' c' hc'
    obtain ⟨key, hnames⟩ := hengine e env ops c hc
    obtain ⟨key', hnames'⟩ := hengine e' env' ops' c' hc'
    exact hnames.apart hnames'

theorem created_names_colliding :
    let settings : Settings Double := Script.settings
    let calls := (Script.site (Script.engine false) {}
      [.acquire (.text "user/42 session"), .acquire (.text "..user 42/session")]).env.world.calls
    settings.containerPrefix = .text "yz-sandbox" ∧ IsStem "yz-sandbox".toList ∧
      calls.filterMap PlaneCall.created = [(.text "yz-sandbox-user-42-session-00000001", 1),
        (.text "yz-sandbox-user-42-session-00000002", 2)] ∧
      (∀ c ∈ calls, ∃ key, c.Names "yz-sandbox" key) ∧ ∀ c ∈ calls, ∀ c' ∈ calls, c.Apart c' := by
  intro settings calls
  have hrest : "z-sandbox".toList.all (fun c => Runner.Follows c) = true := by decide
  have hstem : IsStem "yz-sandbox".toList :=
    ⟨'y', "z-sandbox".toList, rfl, rfl, List.all_iff_forall_prop.mp hrest⟩
  have hstarts : settings.containerPrefix = .text "yz-sandbox" := rfl
  obtain ⟨-, hcreated, -, -, -, -, hdiffer⟩ := created_names Script.plane hstarts hstem
  refine ⟨hstarts, hstem, by decide +kernel, hcreated _ _ _, ?_⟩
  exact fun c hc c' hc' => hdiffer _ _ _ c hc _ _ _ c' hc'

end Playpen
