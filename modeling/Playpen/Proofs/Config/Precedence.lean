import Playpen.Proofs.Config.Fields
import Playpen.Proofs.Config.Loading
import Playpen.Proofs.Docker.Choice
import Playpen.Proofs.Number.Integer

namespace Playpen.Config

namespace Field

variable {σ : Type} {f : Field σ} {fields : List (Field σ)} {mapping : List (Scalar × Value)}

def Apart (f g : Field σ) : Prop := ∀ v s, f.get (g.set v s) = f.get s ∧ g.get (f.set v s) = g.get s

structure Lawful (fields : List (Field σ)) : Prop where
  kept : ∀ f ∈ fields, ∀ v s, f.get (f.set v s) = v
  apart : fields.Pairwise Apart

theorem get_assign_apart (h : ∀ g ∈ fields, Apart f g) (s : σ) : f.get (assign fields mapping s) = f.get s := by
  induction fields generalizing s with
  | nil => rfl
  | cons g fields ih =>
    obtain ⟨hg, hfields⟩ := List.forall_mem_cons.mp h
    rw [assign, List.foldl_cons]
    refine (ih hfields _).trans ?_
    cases Value.find? g.name mapping with
    | none => rfl
    | some v => exact (hg v s).1

theorem get_assign (h : Lawful fields) (hf : f ∈ fields) (s : σ) :
    f.get (assign fields mapping s) = (Value.find? f.name mapping).getD (f.get s) := by
  induction fields generalizing s with
  | nil => cases hf
  | cons g fields ih =>
    obtain ⟨hapart, hrest⟩ := List.pairwise_cons.mp h.apart
    obtain ⟨hg, hkept⟩ := List.forall_mem_cons.mp h.kept
    rw [assign, List.foldl_cons]
    rcases List.mem_cons.mp hf with rfl | hf
    · refine (get_assign_apart hapart _).trans ?_
      cases Value.find? f.name mapping with
      | none => rfl
      | some v => exact hg v s
    · refine (ih ⟨hkept, hrest⟩ hf _).trans ?_
      congr 1
      cases Value.find? g.name mapping with
      | none => rfl
      | some v => exact (hapart f hf v s).2

end Field

open Playpen.Config.Field (Lawful get_assign)

theorem lawful_sandbox : Lawful Sandbox.fields := by
  constructor <;> simp [Sandbox.fields, Field.Apart]

theorem lawful_toolchain : Lawful Toolchain.fields := by
  constructor <;> simp [Toolchain.fields, Field.Apart]

theorem lawful_top : Lawful topFields := by
  constructor <;> simp [topFields, Field.Apart]

inductive Part where
  | top
  | sandbox
  | toolchain
deriving DecidableEq

structure Slot where
  part : Part
  name : String
  get : Config → Value

def slots : List Slot := [
  ⟨.top, "name", (·.name)⟩,
  ⟨.top, "max_code_size", (·.maxCodeSize)⟩,
  ⟨.top, "log_level", (·.logLevel)⟩,
  ⟨.sandbox, "control_plane", (·.sandbox.controlPlane)⟩,
  ⟨.sandbox, "image", (·.sandbox.image)⟩,
  ⟨.sandbox, "container_name", (·.sandbox.containerName)⟩,
  ⟨.sandbox, "container_prefix", (·.sandbox.containerPrefix)⟩,
  ⟨.sandbox, "user", (·.sandbox.user)⟩,
  ⟨.sandbox, "working_dir", (·.sandbox.workingDir)⟩,
  ⟨.sandbox, "memory_limit_mb", (·.sandbox.memoryLimit)⟩,
  ⟨.sandbox, "max_execution_time_seconds", (·.sandbox.maxExecutionTime)⟩,
  ⟨.sandbox, "network_enabled", (·.sandbox.networkEnabled)⟩,
  ⟨.sandbox, "privileged", (·.sandbox.privileged)⟩,
  ⟨.sandbox, "control_timeout_seconds", (·.sandbox.controlTimeout)⟩,
  ⟨.sandbox, "default_session_key", (·.sandbox.defaultSessionKey)⟩,
  ⟨.sandbox, "version_session_key", (·.sandbox.versionSessionKey)⟩,
  ⟨.sandbox, "recycle_on_timeout", (·.sandbox.recycleOnTimeout)⟩,
  ⟨.sandbox, "docker_binary", (·.sandbox.dockerBinary)⟩,
  ⟨.toolchain, "compiler", (·.toolchain.compiler)⟩,
  ⟨.toolchain, "source_filename", (·.toolchain.sourceFilename)⟩,
  ⟨.toolchain, "run_command", (·.toolchain.runCommand)⟩,
  ⟨.toolchain, "generated_code_command", (·.toolchain.generatedCodeCommand)⟩,
  ⟨.toolchain, "version_command", (·.toolchain.versionCommand)⟩,
  ⟨.toolchain, "generated_code_begin", (·.toolchain.generatedCodeBegin)⟩,
  ⟨.toolchain, "generated_code_end", (·.toolchain.generatedCodeEnd)⟩,
  ⟨.toolchain, "noise_markers", (·.toolchain.noiseMarkers)⟩]

theorem slots_eq : slots = topFields.map (fun f => ⟨.top, f.name, f.get⟩) ++
    Sandbox.fields.map (fun f => ⟨.sandbox, f.name, fun c => f.get c.sandbox⟩) ++
    Toolchain.fields.map (fun f => ⟨.toolchain, f.name, fun c => f.get c.toolchain⟩) := rfl

theorem forall_slots {P : Slot → Prop} : (∀ x ∈ slots, P x) ↔
    (∀ f ∈ topFields, P ⟨.top, f.name, f.get⟩) ∧
      (∀ f ∈ Sandbox.fields, P ⟨.sandbox, f.name, fun c => f.get c.sandbox⟩) ∧
      ∀ f ∈ Toolchain.fields, P ⟨.toolchain, f.name, fun c => f.get c.toolchain⟩ := by
  simp only [slots_eq, List.forall_mem_append, List.forall_mem_map, and_assoc]

def keys (part : Part) : List String := (slots.filter (·.part = part)).map Slot.name

theorem entries_congr {σ : Type} {fields : List (Field σ)} {s s' : σ} (h : ∀ f ∈ fields, f.get s = f.get s') :
    Field.entries fields s = Field.entries fields s' :=
  List.map_congr_left fun f hf => congrArg (Prod.mk _) (h f hf)

theorem eq_of_slots {c c' : Config} (h : ∀ x ∈ slots, x.get c = x.get c') : c = c' := by
  obtain ⟨htop, hs, ht⟩ := forall_slots.mp h
  have hsandbox : c.sandbox = c'.sandbox := by
    rw [← assign_sandbox c.sandbox {}, entries_congr hs, assign_sandbox]
  have htoolchain : c.toolchain = c'.toolchain := by
    rw [← assign_toolchain c.toolchain {}, entries_congr ht, assign_toolchain]
  simp only [topFields, List.forall_mem_cons] at htop
  obtain ⟨hname, hsize, hlevel, -⟩ := htop
  cases c
  cases c'
  cases hname
  cases hsize
  cases hlevel
  cases hsandbox
  cases htoolchain
  rfl

inductive Reading where
  | text
  | integer
  | millis
  | word

namespace Reading

def Means : Reading → String → Value → Prop
  | text, s, v => v = .text s
  | integer, s, v => ∃ i, Numeral.Spells s i ∧ v = .int i
  | millis, s, v => ∃ ms, Numeral.Spells s ms ∧ v = .float ((Double.ofInt ms).divNat 1000)
  | word, s, v => v = .text (Text.lower (String.ofList (Text.strip s.toList)))

def read? : Reading → String → Option Value
  | text, s => some (.text s)
  | integer, s => (Numeral.integer? s).map .int
  | millis, s => (Numeral.integer? s).map fun ms => .float ((Double.ofInt ms).divNat 1000)
  | word, s => some (.text (Text.lower (Text.trim s)))

theorem read?_eq_some_iff {r : Reading} {s : String} {v : Value} : r.read? s = some v ↔ r.Means s v := by
  cases r with
  | text => rw [read?, Option.some.injEq, Means, eq_comm]
  | integer | millis =>
    simp only [read?, Option.map_eq_some_iff, Numeral.integer?_eq_some_iff, Means, @eq_comm _ v]
  | word => rw [read?, Option.some.injEq, Means, Text.trim, Text.trimBy_isBlank, eq_comm]

end Reading

structure Override where
  part : Part
  name : String
  source : String
  reading : Reading

def overrides : List Override := [
  ⟨.sandbox, "max_execution_time_seconds", "MAX_EXECUTION_TIME", .millis⟩,
  ⟨.sandbox, "memory_limit_mb", "MAX_MEMORY", .integer⟩,
  ⟨.top, "max_code_size", "MAX_CODE_SIZE", .integer⟩,
  ⟨.sandbox, "container_name", "SANDBOX_CONTAINER", .text⟩,
  ⟨.sandbox, "image", "SANDBOX_IMAGE", .text⟩,
  ⟨.sandbox, "control_plane", "SANDBOX_CONTROL_PLANE", .word⟩,
  ⟨.toolchain, "compiler", "YZ_COMPILER_PATH", .text⟩,
  ⟨.top, "log_level", "LOG_LEVEL", .text⟩]

def Overridden (vars : Variables) (part : Part) (name : String) (v : Value) : Prop :=
  ∃ o ∈ overrides, o.part = part ∧ o.name = name ∧ ∃ s, vars.lookup o.source = some s ∧ s ≠ "" ∧ o.reading.Means s v

def override? (vars : Variables) (part : Part) (name : String) : Option Value :=
  (overrides.find? fun o => o.part = part ∧ o.name = name).bind fun o => (nonempty? vars o.source).bind o.reading.read?

theorem overrides_distinct : ∀ o ∈ overrides, ∀ o' ∈ overrides, o'.part = o.part → o'.name = o.name → o' = o := by
  simp [overrides]

theorem override?_eq_some_iff {vars : Variables} {part : Part} {name : String} {v : Value} :
    override? vars part name = some v ↔ Overridden vars part name v := by
  simp only [override?, nonempty?, Option.bind_eq_some_iff, Option.filter_eq_some_iff, Reading.read?_eq_some_iff,
    decide_eq_true_eq]
  constructor
  · rintro ⟨o, ho, s, ⟨hs, hne⟩, hv⟩
    have hfound := List.find?_some ho
    obtain ⟨hpart, hname⟩ := of_decide_eq_true hfound
    exact ⟨o, List.mem_of_find?_eq_some ho, hpart, hname, s, hs, hne, hv⟩
  · rintro ⟨o, ho, rfl, rfl, s, hs, hne, hv⟩
    obtain ⟨o', ho'⟩ : ∃ o', overrides.find? (fun p => decide (p.part = o.part ∧ p.name = o.name)) = some o' :=
      Option.isSome_iff_exists.mp (List.find?_isSome.mpr ⟨o, ho, decide_eq_true ⟨rfl, rfl⟩⟩)
    have hfound := List.find?_some ho'
    obtain ⟨hpart, hname⟩ := of_decide_eq_true hfound
    obtain rfl : o' = o := overrides_distinct o ho o' (List.mem_of_find?_eq_some ho') hpart hname
    exact ⟨o', ho', s, ⟨hs, hne⟩, hv⟩

def listed : Value → Value
  | .text s => .list [.text s]
  | v => v

def under (key : String) (mapping : List (Scalar × Value)) : List (Scalar × Value) :=
  match Value.find? key mapping with
  | some (.map entries) => entries
  | _ => []

def entriesOf (mapping : List (Scalar × Value)) : Part → List (Scalar × Value)
  | .top => mapping
  | .sandbox => under "sandbox" mapping
  | .toolchain => under "toolchain" mapping

def written? (mapping : List (Scalar × Value)) (part : Part) (name : String) : Option Value :=
  (Value.find? name (entriesOf mapping part)).map (if name = "noise_markers" then listed else id)

def IsSection (v : Value) : Prop := v.truth = false ∨ ∃ entries, v = .map entries

theorem section?_eq_some_iff {key : String} {mapping entries : List (Scalar × Value)} :
    (section? key mapping = some entries) ↔
      (∀ v, Value.find? key mapping = some v → IsSection v) ∧ under key mapping = entries := by
  unfold section? under IsSection
  cases Value.find? key mapping with
  | none => simp
  | some v =>
    simp only [Option.some.injEq, forall_eq']
    cases v with
    | map entries' => cases entries' <;> simp [Value.truth]
    | scalar s => cases h : s.truth <;> simp [Value.truth, h]
    | _ => simp [Value.truth]

section

variable {mapping : List (Scalar × Value)}

theorem listed_eq {v : Value} (h : ∀ s, v = .text s → False) : listed v = v := by
  unfold listed
  split
  next s => exact absurd rfl (h s)
  next => rfl

theorem listOfMarkers_eq (t : Toolchain) : listOfMarkers t = { t with noiseMarkers := listed t.noiseMarkers } := by
  unfold listOfMarkers
  split
  next s hs => rw [hs, listed]
  next h => rw [listed_eq h]

theorem get_listOfMarkers (t : Toolchain) {f : Field Toolchain} (hf : f ∈ Toolchain.fields) :
    f.get (listOfMarkers t) = (if f.name = "noise_markers" then listed else id) (f.get t) := by
  rw [listOfMarkers_eq]
  revert f
  simp [Toolchain.fields]

theorem assign_top (mapping : List (Scalar × Value)) (c : Config) :
    (Field.assign topFields mapping c).sandbox = c.sandbox ∧
      (Field.assign topFields mapping c).toolchain = c.toolchain := by
  simp only [Field.assign, topFields, List.foldl_cons, List.foldl_nil]
  cases Value.find? "name" mapping <;> cases Value.find? "max_code_size" mapping <;>
    cases Value.find? "log_level" mapping <;> exact ⟨rfl, rfl⟩

theorem get_layered : ∀ x ∈ slots, x.get (layered mapping (under "sandbox" mapping) (under "toolchain" mapping)) =
    (written? mapping x.part x.name).getD (x.get {}) := by
  obtain ⟨hsandbox, htoolchain⟩ := assign_top mapping {
    sandbox := Field.assign Sandbox.fields (under "sandbox" mapping) {}
    toolchain := listOfMarkers (Field.assign Toolchain.fields (under "toolchain" mapping) {}) }
  refine forall_slots.mpr ⟨fun f hf => ?_, fun f hf => ?_, fun f hf => ?_⟩
  · have hdefault (s : Sandbox) (t : Toolchain) : f.get { sandbox := s, toolchain := t } = f.get {} := by
      revert f
      simp [topFields]
    have hname : f.name ≠ "noise_markers" := by
      revert f
      simp [topFields]
    refine (get_assign lawful_top hf _).trans ?_
    rw [hdefault, written?, if_neg hname, Option.map_id]
    rfl
  · have hname : f.name ≠ "noise_markers" := by
      revert f
      simp [Sandbox.fields]
    simp only [layered, written?, entriesOf]
    rw [hsandbox, get_assign lawful_sandbox hf, if_neg hname, Option.map_id]
    rfl
  · have hdefault : (if f.name = "noise_markers" then listed else id) (f.get {}) = f.get {} := by
      revert f
      simp [Toolchain.fields, listed]
    simp only [layered, written?, entriesOf]
    rw [htoolchain, get_listOfMarkers _ hf, get_assign lawful_toolchain hf]
    cases Value.find? f.name (under "toolchain" mapping) with
    | none => exact hdefault
    | some v => rfl

end

section

variable {vars : Variables} {c : Config} {limit : Value}

theorem override?_limit (vars : Variables) : override? vars .sandbox "max_execution_time_seconds" =
    (integer? vars "MAX_EXECUTION_TIME").map fun ms => .float ((Double.ofInt ms).divNat 1000) := by
  unfold integer?
  rw [Option.map_bind]
  rfl

theorem override?_memory (vars : Variables) :
    override? vars .sandbox "memory_limit_mb" = (integer? vars "MAX_MEMORY").map .int := by
  unfold integer?
  rw [Option.map_bind]
  rfl

theorem override?_size (vars : Variables) :
    override? vars .top "max_code_size" = (integer? vars "MAX_CODE_SIZE").map .int := by
  unfold integer?
  rw [Option.map_bind]
  rfl

def applyOne (vars : Variables) (c : Config) (x : TextVariable) : Config :=
  (nonempty? vars x.name).elim c fun text => x.set (.text (x.read text)) c

theorem applyText_foldl (vars : Variables) (c : Config) : applyText vars c = textVariables.foldl (applyOne vars) c := by
  unfold applyText
  congr 1
  funext c x
  unfold applyOne
  cases nonempty? vars x.name <;> rfl

theorem applyOne_eq (vars : Variables) {x : TextVariable} {v : Value} {o : Option Value} (hkeep : x.set v c = c)
    (ho : o = (nonempty? vars x.name).bind fun s => some (.text (x.read s))) :
    applyOne vars c x = x.set (o.getD v) c := by
  subst ho
  unfold applyOne
  cases nonempty? vars x.name with
  | none => exact hkeep.symm
  | some s => rfl

theorem applyText_eq (vars : Variables) (c : Config) : applyText vars c = {
    name := c.name
    sandbox := { c.sandbox with
      containerName := (override? vars .sandbox "container_name").getD c.sandbox.containerName
      image := (override? vars .sandbox "image").getD c.sandbox.image
      controlPlane := (override? vars .sandbox "control_plane").getD c.sandbox.controlPlane }
    toolchain := { c.toolchain with compiler := (override? vars .toolchain "compiler").getD c.toolchain.compiler }
    maxCodeSize := c.maxCodeSize
    logLevel := (override? vars .top "log_level").getD c.logLevel } := by
  rw [applyText_foldl]
  unfold textVariables
  iterate 5 rw [List.foldl_cons, applyOne_eq vars rfl rfl]
  rfl

theorem limit_eq (h : timeLimit vars c = .ok limit) :
    limit = (override? vars .sandbox "max_execution_time_seconds").getD c.sandbox.maxExecutionTime := by
  rw [override?_limit]
  unfold timeLimit at h
  cases hms : integer? vars "MAX_EXECUTION_TIME" with
  | none =>
    rw [hms] at h
    cases h
    rfl
  | some ms =>
    rw [hms, Option.elim_some, secondsOfMillis, doubleOfInt_eq] at h
    dsimp only at h
    cases hx : Double.ofInt ms <;> rw [hx] at h <;> cases h <;> rw [Option.map_some, hx] <;> rfl

theorem get_limited (h : timeLimit vars c = .ok limit) :
    ∀ x ∈ slots, x.get (limited vars c limit) = (override? vars x.part x.name).getD (x.get c) := by
  have hmemory : (integer? vars "MAX_MEMORY").elim c.sandbox.memoryLimit .int =
      (override? vars .sandbox "memory_limit_mb").getD c.sandbox.memoryLimit := by
    rw [override?_memory]
    cases integer? vars "MAX_MEMORY" <;> rfl
  have hsize : (integer? vars "MAX_CODE_SIZE").elim c.maxCodeSize .int =
      (override? vars .top "max_code_size").getD c.maxCodeSize := by
    rw [override?_size]
    cases integer? vars "MAX_CODE_SIZE" <;> rfl
  rw [limited, applyText_eq, limit_eq h, hmemory, hsize]
  refine forall_slots.mpr ⟨?_, ?_, ?_⟩
  · rw [topFields, List.forall_mem_cons, List.forall_mem_cons, List.forall_mem_cons]
    exact ⟨rfl, rfl, rfl, List.forall_mem_nil _⟩
  · unfold Sandbox.fields
    iterate 15 rw [List.forall_mem_cons]
    exact ⟨rfl, rfl, rfl, rfl, rfl, rfl, rfl, rfl, rfl, rfl, rfl, rfl, rfl, rfl, rfl, List.forall_mem_nil _⟩
  · unfold Toolchain.fields
    iterate 8 rw [List.forall_mem_cons]
    exact ⟨rfl, rfl, rfl, rfl, rfl, rfl, rfl, rfl, List.forall_mem_nil _⟩

end

theorem find?_eq_some {mapping : List (Scalar × Value)} (hdistinct : (mapping.map (·.1)).Nodup) {name : String}
    {v : Value} :
    Value.find? name mapping = some v ↔ (.text name, v) ∈ mapping := by
  induction mapping with
  | nil => simp [Value.find?]
  | cons e mapping ih =>
    obtain ⟨k, w⟩ := e
    obtain ⟨hk, hmapping⟩ := List.nodup_cons.mp hdistinct
    rw [Value.find?, List.mem_cons]
    by_cases hname : k = .text name
    · subst hname
      have habsent : (.text name, v) ∉ mapping := fun hv => hk (List.mem_map.mpr ⟨_, hv, rfl⟩)
      simp [habsent, eq_comm]
    · rw [if_neg hname, ih hmapping]
      simp [Ne.symm hname]

def isKnown (known : List String) (e : Scalar × Value) : Bool := known.any fun name => e.1 = .text name

theorem find?_filter {known : List String} {name : String} (hname : name ∈ known) (mapping : List (Scalar × Value)) :
    Value.find? name (mapping.filter (isKnown known)) = Value.find? name mapping := by
  induction mapping with
  | nil => rfl
  | cons e mapping ih =>
    obtain ⟨k, v⟩ := e
    by_cases hk : k = .text name
    · have hknown : isKnown known (k, v) = true := List.any_eq_true.mpr ⟨name, hname, decide_eq_true hk⟩
      rw [List.filter_cons_of_pos hknown, Value.find?, Value.find?, if_pos hk, if_pos hk]
    · rw [Value.find?, if_neg hk, List.filter_cons]
      split
      · rw [Value.find?, if_neg hk, ih]
      · exact ih

structure Reordered (known : List String) (mapping mapping' : List (Scalar × Value)) : Prop where
  distinct : (mapping'.map (·.1)).Nodup
  entries : (mapping.filter (isKnown known)).Perm (mapping'.filter (isKnown known))

theorem Reordered.find?_eq {known : List String} {mapping mapping' : List (Scalar × Value)}
    (h : Reordered known mapping mapping') {name : String} (hname : name ∈ known) :
    Value.find? name mapping = Value.find? name mapping' := by
  have hdistinct' : ((mapping'.filter (isKnown known)).map (·.1)).Nodup :=
    h.distinct.sublist (List.filter_sublist.map _)
  have hdistinct : ((mapping.filter (isKnown known)).map (·.1)).Nodup :=
    (h.entries.map _).nodup_iff.mpr hdistinct'
  rw [← find?_filter hname mapping, ← find?_filter hname mapping']
  ext v
  rw [find?_eq_some hdistinct, find?_eq_some hdistinct', h.entries.mem_iff]

/-- Mappings that say the same to one who knows all the keys. -/
def SameSettings (mapping mapping' : List (Scalar × Value)) : Prop :=
  ∀ part, Reordered (keys part) (entriesOf mapping part) (entriesOf mapping' part)

theorem SameSettings.written?_eq {mapping mapping' : List (Scalar × Value)} (h : SameSettings mapping mapping') :
    ∀ x ∈ slots, written? mapping x.part x.name = written? mapping' x.part x.name := by
  intro x hx
  have hkey : x.name ∈ keys x.part :=
    List.mem_map_of_mem (List.mem_filter.mpr ⟨hx, decide_eq_true rfl⟩)
  rw [written?, written?, (h x.part).find?_eq hkey]

/-- What a field is by the first of the layers that has it. -/
inductive Layer (vars : Variables) (mapping : List (Scalar × Value)) (x : Slot) : Value → Prop
  | variable {v : Value} (h : Overridden vars x.part x.name v) : Layer vars mapping x v
  | file {v : Value} (hfree : ∀ v, ¬ Overridden vars x.part x.name v) (h : written? mapping x.part x.name = some v) :
    Layer vars mapping x v
  | default (hfree : ∀ v, ¬ Overridden vars x.part x.name v) (h : written? mapping x.part x.name = none) :
    Layer vars mapping x (x.get {})

theorem layer_iff {vars : Variables} {mapping : List (Scalar × Value)} {x : Slot} {v : Value} :
    Layer vars mapping x v ↔
      v = ((override? vars x.part x.name).or (written? mapping x.part x.name)).getD (x.get {}) := by
  have hoverride (v : Value) : override? vars x.part x.name = some v ↔ Overridden vars x.part x.name v :=
    override?_eq_some_iff
  cases ho : override? vars x.part x.name with
  | some w =>
    have hw := (hoverride w).mp ho
    constructor
    · rintro (h | ⟨hfree, -⟩ | ⟨hfree, -⟩)
      · exact Option.some.inj (((hoverride v).mpr h).symm.trans ho)
      · exact absurd hw (hfree w)
      · exact absurd hw (hfree w)
    · rintro rfl
      exact .variable hw
  | none =>
    have hfree (v : Value) (h : Overridden vars x.part x.name v) : False := by
      rw [← hoverride, ho] at h
      cases h
    rw [Option.none_or]
    constructor
    · rintro (h | ⟨-, h⟩ | ⟨-, h⟩)
      · exact absurd h (hfree v)
      · rw [h, Option.getD_some]
      · rw [h, Option.getD_none]
    · rintro rfl
      cases h : written? mapping x.part x.name with
      | some w => exact .file hfree h
      | none => exact .default hfree h

theorem Layer.recased {vars : Variables} {mapping : List (Scalar × Value)} {c : Config} {s : String}
    (h : Layer vars mapping ⟨.sandbox, "control_plane", (·.sandbox.controlPlane)⟩ c.sandbox.controlPlane)
    (hvalid : validate c = .ok ()) (hs : vars.lookup "SANDBOX_CONTROL_PLANE" = some s) (hne : s ≠ "") :
    ∃ choice : Docker.Choice, c.sandbox.controlPlane = .text choice.name ∧
      List.Forall₂ Text.Recases (Text.strip s.toList) choice.name.toList := by
  obtain ⟨choice, hchoice⟩ := Docker.controlPlane_of_validate hvalid
  let word := String.ofList (Text.strip s.toList)
  have hoverridden : override? vars .sandbox "control_plane" = some (.text (Text.lower word)) := by
    apply override?_eq_some_iff.mpr
    exact ⟨⟨.sandbox, "control_plane", "SANDBOX_CONTROL_PLANE", .word⟩, by simp [overrides], rfl, rfl, s, hs, hne, rfl⟩
  have hplane := layer_iff.mp h
  rw [hoverridden, hchoice] at hplane
  have hlower : Text.lower word = choice.name := (Scalar.text.inj (Value.scalar.inj hplane)).symm
  have hrecases := (Text.lower_eq_iff fun d hd => (Docker.name_plain choice d hd).1).mp hlower
  rw [String.toList_ofList] at hrecases
  exact ⟨choice, hchoice, hrecases⟩

def SameOverrides (vars vars' : Variables) : Prop := ∀ o ∈ overrides, vars.lookup o.source = vars'.lookup o.source

theorem SameOverrides.override?_eq {vars vars' : Variables} (h : SameOverrides vars vars') (part : Part)
    (name : String) :
    override? vars part name = override? vars' part name := by
  unfold override?
  cases ho : overrides.find? fun o => o.part = part ∧ o.name = name with
  | none => rfl
  | some o =>
    rw [Option.bind_some, Option.bind_some, nonempty?, nonempty?, h o (List.mem_of_find?_eq_some ho)]

inductive Says (files : Tree) (path : Path) : List (Scalar × Value) → Prop
  | nothing (h : files.has path = .ok false) : Says files path []
  | mapping {mapping : List (Scalar × Value)} (hthere : files.has path = .ok true) (h : Holds files path mapping) :
    Says files path mapping

def Shown (mapping : List (Scalar × Value)) : Prop :=
  (∀ key ∈ ["sandbox", "toolchain"], ∀ v, Value.find? key mapping = some v → IsSection v) ∧
    ∀ part, ¬ Unshown (entriesOf mapping part)

theorem Says.unique {files : Tree} {path : Path} {mapping mapping' : List (Scalar × Value)}
    (h : Says files path mapping) (h' : Says files path mapping') : mapping = mapping' := by
  obtain hnone | ⟨hthere, data, v, hdata, hv, hroot⟩ := h <;>
    obtain hnone' | ⟨hthere', data', v', hdata', hv', hroot'⟩ := h'
  · rfl
  · cases hnone.symm.trans hthere'
  · cases hnone'.symm.trans hthere
  · cases hdata.symm.trans hdata'
    cases hv.symm.trans hv'
    exact Option.some.inj (hroot.symm.trans hroot')

theorem made_nil {c : Config} : Made [] c ↔ c = {} := by
  have hnone : ¬ Unshown [] := nofun
  constructor
  · rintro ⟨hs, ht, -, -⟩
    cases hs
    cases ht
    rfl
  · rintro rfl
    exact .intro rfl rfl ⟨hnone, hnone, hnone⟩ validate_default

theorem base_iff {files : Tree} {path : Path} {c : Config} :
    Base files path c ↔ ∃ mapping, Says files path mapping ∧ Made mapping c := by
  constructor
  · rintro (h | ⟨hthere, hmapping, hc⟩)
    · exact ⟨[], .nothing h, made_nil.mpr rfl⟩
    · exact ⟨_, .mapping hthere hmapping, hc⟩
  · rintro ⟨_, hnone | ⟨hthere, hmapping⟩, hc⟩
    · cases made_nil.mp hc
      exact .default hnone
    · exact .file hthere hmapping hc

section

variable {files files' : Tree} {vars vars' : Variables} {path path' : Path} {mapping mapping' : List (Scalar × Value)}
  {c base : Config} {limit : Value}

theorem made_iff : Made mapping c ↔ Shown mapping ∧ c = layered mapping (under "sandbox" mapping)
    (under "toolchain" mapping) ∧ validate c = .ok () := by
  constructor
  · rintro ⟨hs, ht, ⟨hsandbox, htoolchain, hmapping⟩, hvalid⟩
    obtain ⟨hsection, rfl⟩ := section?_eq_some_iff.mp hs
    obtain ⟨hsection', rfl⟩ := section?_eq_some_iff.mp ht
    refine ⟨⟨?_, ?_⟩, rfl, hvalid⟩
    · rintro key (_ | ⟨_, _ | ⟨_, hkey⟩⟩)
      · exact hsection
      · exact hsection'
      · cases hkey
    · rintro (_ | _ | _)
      · exact hmapping
      · exact hsandbox
      · exact htoolchain
  · rintro ⟨⟨hsections, hshown⟩, rfl, hvalid⟩
    refine .intro (section?_eq_some_iff.mpr ⟨hsections _ (by simp), rfl⟩)
      (section?_eq_some_iff.mpr ⟨hsections _ (by simp), rfl⟩) ?_ hvalid
    exact ⟨hshown .sandbox, hshown .toolchain, hshown .top⟩

theorem Made.congr (h : Made mapping c) (hsame : SameSettings mapping mapping') (hshown : Shown mapping') :
    Made mapping' c := by
  obtain ⟨-, hc, hvalid⟩ := made_iff.mp h
  refine made_iff.mpr ⟨hshown, ?_, hvalid⟩
  rw [hc]
  apply eq_of_slots
  intro x hx
  rw [get_layered x hx, get_layered x hx, hsame.written?_eq x hx]

theorem SameOverrides.timeLimit_eq (h : SameOverrides vars vars') (c : Config) :
    timeLimit vars c = timeLimit vars' c := by
  have hlookup : vars.lookup "MAX_EXECUTION_TIME" = vars'.lookup "MAX_EXECUTION_TIME" := h _ List.mem_cons_self
  rw [timeLimit, timeLimit, integer?, integer?, nonempty?, nonempty?, hlookup]

theorem SameOverrides.limited_eq (h : SameOverrides vars vars') (hlimit : timeLimit vars c = .ok limit) :
    limited vars c limit = limited vars' c limit := by
  apply eq_of_slots
  intro x hx
  rw [get_limited hlimit x hx, get_limited (h.timeLimit_eq c ▸ hlimit) x hx, h.override?_eq]

theorem Loaded.layers (h : Loaded files vars path c) : ∃ mapping, Says files path mapping ∧ Shown mapping ∧
    ∀ x ∈ slots, Layer vars mapping x (x.get c) := by
  obtain ⟨base, limit, hbase, hlimit, rfl⟩ := h
  obtain ⟨mapping, hsaid, hmade⟩ := base_iff.mp hbase
  obtain ⟨hshown, rfl, -⟩ := made_iff.mp hmade
  refine ⟨mapping, hsaid, hshown, fun x hx => layer_iff.mpr ?_⟩
  rw [get_limited hlimit x hx, get_layered x hx, Option.getD_or]

theorem Loaded.congr (h : Loaded files vars path c) (hsaid : Says files path mapping)
    (hsaid' : Says files' path' mapping')
    (hsame : SameSettings mapping mapping') (hvars : SameOverrides vars vars') (hshown : Shown mapping') :
    Loaded files' vars' path' c := by
  obtain ⟨base, limit, hbase, hlimit, rfl⟩ := h
  obtain ⟨_, hsaid₁, hmade⟩ := base_iff.mp hbase
  cases hsaid.unique hsaid₁
  refine ⟨base, limit, base_iff.mpr ⟨mapping', hsaid', hmade.congr hsame hshown⟩, ?_, hvars.limited_eq hlimit⟩
  rw [← hvars.timeLimit_eq, hlimit]

end

/-- In a loaded configuration a field is as its variable has it, else as the file has it, else as by default, and
that is all that there is to a configuration. A control plane that a variable names is so named there but for case and
blanks around it. Keys that are not known, the order of keys, and other variables are nothing to it. -/
theorem load_precedence {files : Tree} {vars : Variables} {m m' : Manager} {log : List Record}
    (h : (m.load files vars log).1 = .ok m') :
    ∃ mapping c, Says files m.path mapping ∧ m' = { m with current := some c } ∧
      (∀ c', (∀ x ∈ slots, Layer vars mapping x (x.get c')) ↔ c' = c) ∧
      (∀ s, vars.lookup "SANDBOX_CONTROL_PLANE" = some s → s ≠ "" → ∃ choice : Docker.Choice,
        c.sandbox.controlPlane = .text choice.name ∧
          List.Forall₂ Text.Recases (Text.strip s.toList) choice.name.toList) ∧
      ∀ files' vars' (other : Manager) log' mapping', Says files' other.path mapping' → SameSettings mapping mapping' →
        SameOverrides vars vars' →
          (Shown mapping' → (other.load files' vars' log').1 = .ok { other with current := some c }) ∧
          ∀ loaded, (other.load files' vars' log').1 = .ok loaded → loaded = { other with current := some c } := by
  obtain ⟨c, hloaded, hvalid, hm'⟩ := ((load_outcome files vars m log).1 m').mp h
  obtain ⟨mapping, hsaid, -, hlayers⟩ := hloaded.layers
  refine ⟨mapping, c, hsaid, hm', fun c' => ⟨fun hc' => ?_, ?_⟩, ?_, ?_⟩
  · apply eq_of_slots
    intro x hx
    rw [layer_iff.mp (hc' x hx), layer_iff.mp (hlayers x hx)]
  · rintro rfl
    exact hlayers
  · exact fun s => (hlayers ⟨.sandbox, "control_plane", (·.sandbox.controlPlane)⟩ (by simp [slots])).recased hvalid
  · intro files' vars' other log' mapping' hsaid' hsame hvars
    have hload (hshown : Shown mapping') :
        (other.load files' vars' log').1 = .ok { other with current := some c } := by
      apply ((load_outcome files' vars' other log').1 _).mpr
      exact ⟨c, hloaded.congr hsaid hsaid' hsame hvars hshown, hvalid, rfl⟩
    refine ⟨hload, fun loaded hother => ?_⟩
    obtain ⟨c', hloaded', -, -⟩ := ((load_outcome files' vars' other log').1 loaded).mp hother
    obtain ⟨mapping'', hsaid'', hshown, -⟩ := hloaded'.layers
    cases hsaid'.unique hsaid''
    exact Except.ok.inj (hother.symm.trans (hload hshown))

def sectioned : Tree where
  files := [(["c.json"], [123, 34, 110, 97, 109, 101, 34, 58, 34, 120, 34, 44, 34, 115, 34, 58, 49, 44, 34, 115,
    97, 110, 100, 98, 111, 120, 34, 58, 123, 34, 113, 34, 58, 48, 44, 34, 117, 115, 101, 114, 34, 58, 34, 117, 34,
    44, 34, 109, 101, 109, 111, 114, 121, 95, 108, 105, 109, 105, 116, 95, 109, 98, 34, 58, 54, 52, 125, 44, 34,
    116, 111, 111, 108, 99, 104, 97, 105, 110, 34, 58, 123, 34, 110, 111, 105, 115, 101, 95, 109, 97, 114, 107,
    101, 114, 115, 34, 58, 34, 109, 34, 125, 44, 34, 108, 111, 103, 95, 108, 101, 118, 101, 108, 34, 58, 34, 121,
    34, 125])]

set_option maxRecDepth 4096 in
theorem load_precedence_sectioned :
    ∃ c, ((Manager.ofPaths {} (some ⟨"", ["c.json"]⟩)).load sectioned [("MAX_MEMORY", " 5_12 "), ("LOG_LEVEL", ""),
        ("SANDBOX_CONTROL_PLANE", " Docker-API\n"), ("MAX_CODE_SIZE", "many"), ("HOME", "h")] []).1 =
          .ok { path := ⟨"", ["c.json"]⟩, current := some c } ∧
      c.sandbox.memoryLimit = .int 512 ∧ c.sandbox.controlPlane = .text "docker-api" ∧ c.sandbox.user = .text "u" ∧
      c.toolchain.noiseMarkers = .list [.text "m"] ∧ c.name = .text "x" ∧ c.logLevel = .text "y" ∧
      c.maxCodeSize = .int 10000 := by
  have hholds : Holds sectioned ⟨"", ["c.json"]⟩ [(.text "name", .text "x"), (.text "s", .int 1),
      (.text "sandbox", .map [(.text "q", .int 0), (.text "user", .text "u"), (.text "memory_limit_mb", .int 64)]),
      (.text "toolchain", .map [(.text "noise_markers", .text "m")]), (.text "log_level", .text "y")] :=
    ⟨_, _, rfl, rfl, rfl⟩
  have hshown : ¬ Unshown [(.text "q", .int 0), (.text "user", .text "u"), (.text "memory_limit_mb", .int 64)] ∧
      ¬ Unshown [(.text "noise_markers", .text "m")] ∧ ¬ Unshown [(.text "name", .text "x"), (.text "s", .int 1),
        (.text "sandbox", .map [(.text "q", .int 0), (.text "user", .text "u"), (.text "memory_limit_mb", .int 64)]),
        (.text "toolchain", .map [(.text "noise_markers", .text "m")]), (.text "log_level", .text "y")] := by
    simp [Unshown]
  have hmade := Made.intro rfl rfl hshown (validate_eq_ok_of_toOption (by decide +kernel))
  have h := ((load_outcome sectioned [("MAX_MEMORY", " 5_12 "), ("LOG_LEVEL", ""),
    ("SANDBOX_CONTROL_PLANE", " Docker-API\n"), ("MAX_CODE_SIZE", "many"), ("HOME", "h")]
    (.ofPaths {} (some ⟨"", ["c.json"]⟩)) []).1 _).mpr ⟨_, ⟨_, _, .file rfl hholds hmade, rfl, rfl⟩,
      validate_eq_ok_of_toOption (by decide +kernel), rfl⟩
  obtain ⟨mapping, c, hsaid, hc, hlayers, -, -⟩ := load_precedence h
  cases hsaid.unique (.mapping rfl hholds)
  cases hc
  have hget (x : Slot) (hx : x ∈ slots) := layer_iff.mp ((hlayers _).mpr rfl x hx)
  refine ⟨_, h, ?_, ?_, ?_, ?_, ?_, ?_, ?_⟩
  · exact hget ⟨.sandbox, "memory_limit_mb", (·.sandbox.memoryLimit)⟩ (by simp [slots])
  · exact hget ⟨.sandbox, "control_plane", (·.sandbox.controlPlane)⟩ (by simp [slots])
  · exact hget ⟨.sandbox, "user", (·.sandbox.user)⟩ (by simp [slots])
  · exact hget ⟨.toolchain, "noise_markers", (·.toolchain.noiseMarkers)⟩ (by simp [slots])
  · exact hget ⟨.top, "name", (·.name)⟩ (by simp [slots])
  · exact hget ⟨.top, "log_level", (·.logLevel)⟩ (by simp [slots])
  · exact hget ⟨.top, "max_code_size", (·.maxCodeSize)⟩ (by simp [slots])

end Playpen.Config
