import Playpen.Config.Manager
import Playpen.Proofs.Config.Overrides
/-!
How loading a configuration ends. It gives a configuration that passes its checks, or it tells what is
wrong with the configuration, or a failure of the language gets through: from a file whose bytes or
numbers cannot be read, from a key that cannot be shown, from a check of a value of the wrong type, and
from a time limit without an end.
-/
namespace Playpen.Config

def Unshown (mapping : List (Scalar × Value)) : Prop :=
  ∃ i, Scalar.int i ∈ mapping.map (·.1) ∧ Scalar.isWritable i = false

theorem display_or_unshown (k : Scalar) : (∃ text, k.display = .ok text) ∨
    ∃ i, k = .int i ∧ Scalar.isWritable i = false ∧ k.display = .error .tooLong := by
  cases k with
  | int i =>
    simp only [Scalar.display, Scalar.written, Scalar.integerText]
    by_cases h : Scalar.isWritable i = true
    · rw [if_pos h]
      exact .inl ⟨_, rfl⟩
    · rw [if_neg h]
      exact .inr ⟨i, rfl, Bool.not_eq_true _ ▸ h, rfl⟩
  | _ => exact .inl ⟨_, rfl⟩

theorem display_unshown {i : Int} (h : Scalar.isWritable i = false) :
    (Scalar.int i).display = .error .tooLong := by
  simp only [Scalar.display, Scalar.written, Scalar.integerText, h]
  rfl

theorem mapM_display_ok {ks : List Scalar} (h : ∀ i, Scalar.int i ∈ ks → Scalar.isWritable i = true) :
    ∃ texts, ks.mapM Scalar.display = .ok texts := by
  induction ks with
  | nil => exact ⟨[], rfl⟩
  | cons k rest ih =>
    obtain ⟨texts, hrest⟩ := ih fun i hi => h i (List.mem_cons_of_mem _ hi)
    obtain ⟨text, hk⟩ | ⟨i, rfl, hi, _⟩ := display_or_unshown k
    · exact ⟨text :: texts, by rw [List.mapM_cons, hk, hrest]; rfl⟩
    · rw [h i List.mem_cons_self] at hi
      cases hi

theorem mapM_display_error {ks : List Scalar} {i : Int} (hi : Scalar.int i ∈ ks)
    (h : Scalar.isWritable i = false) : ks.mapM Scalar.display = .error .tooLong := by
  induction ks with
  | nil => cases hi
  | cons k rest ih =>
    rw [List.mapM_cons]
    obtain ⟨text, hk⟩ | ⟨_, _, _, hk⟩ := display_or_unshown k <;> rw [hk]
    · obtain rfl | hi := List.mem_cons.mp hi
      · rw [display_unshown h] at hk
        cases hk
      · rw [ih hi]
        rfl
    · rfl

theorem mem_unknown {known : List String} {mapping : List (Scalar × Value)} {i : Int} :
    Scalar.int i ∈ (mapping.map (·.1)).filter (fun k => !known.any fun name => k = .text name) ↔
      Scalar.int i ∈ mapping.map (·.1) := by
  simp [List.mem_filter]

theorem unknownKeys_unshown {known : List String} {mapping : List (Scalar × Value)} (h : Unshown mapping) :
    unknownKeys known mapping = .error .tooLong := by
  obtain ⟨i, hi, hlong⟩ := h
  rw [unknownKeys, mapM_display_error (mem_unknown.mpr hi) hlong]
  rfl

theorem unknownKeys_shown (known : List String) {mapping : List (Scalar × Value)} (h : ¬ Unshown mapping) :
    ∃ names, unknownKeys known mapping = .ok names := by
  have hks (i : Int) (hi : Scalar.int i ∈
      (mapping.map (·.1)).filter fun k => !known.any fun name => k = .text name) :
      Scalar.isWritable i = true :=
    Bool.not_eq_false _ ▸ fun hlong => h ⟨i, mem_unknown.mp hi, hlong⟩
  obtain ⟨texts, ht⟩ := mapM_display_ok hks
  rw [unknownKeys, ht]
  exact ⟨_, rfl⟩

theorem noteUnknown_ends (title : String) (known : List String) (mapping : List (Scalar × Value))
    (log : List Record) : Ends (noteUnknown title known mapping log).1 (fun _ => ¬ Unshown mapping)
      fun kind => Kind.value = kind ∧ Unshown mapping := by
  unfold noteUnknown
  by_cases h : Unshown mapping
  · rw [Act.bind_error (used_error (unknownKeys_unshown h) log)]
    exact (Ends.other .value).congr (by simp [h]) (by simp [h])
  · obtain ⟨names, hnames⟩ := unknownKeys_shown known h
    rw [Act.bind_ok (used_ok hnames log)]
    have hpass : Ends (.ok ()) (fun _ => ¬ Unshown mapping) fun kind => Kind.value = kind ∧ Unshown mapping :=
      (Ends.pure ()).congr (by simp [h]) (by simp [h])
    cases names with
    | nil => exact hpass
    | cons name names => exact hpass

inductive Made (mapping : List (Scalar × Value)) : Config → Prop
  | intro {sandbox toolchain : List (Scalar × Value)} (hs : section? "sandbox" mapping = some sandbox)
    (ht : section? "toolchain" mapping = some toolchain)
    (hshown : ¬ Unshown sandbox ∧ ¬ Unshown toolchain ∧ ¬ Unshown mapping)
    (hvalid : validate (layered mapping sandbox toolchain) = .ok ()) :
    Made mapping (layered mapping sandbox toolchain)

inductive Unmade (mapping : List (Scalar × Value)) : Kind → Prop
  | unshown {sandbox toolchain : List (Scalar × Value)} (hs : section? "sandbox" mapping = some sandbox)
    (ht : section? "toolchain" mapping = some toolchain)
    (h : Unshown sandbox ∨ Unshown toolchain ∨ Unshown mapping) : Unmade mapping .value
  | stuck {sandbox toolchain : List (Scalar × Value)} {kind : Kind}
    (hs : section? "sandbox" mapping = some sandbox) (ht : section? "toolchain" mapping = some toolchain)
    (hshown : ¬ Unshown sandbox ∧ ¬ Unshown toolchain ∧ ¬ Unshown mapping)
    (h : Check.Stuck (layered mapping sandbox toolchain).checks kind) : Unmade mapping kind

theorem needSection_ends (name : String) (mapping : List (Scalar × Value)) :
    Ends (needSection name mapping) (fun entries => section? name mapping = some entries) fun _ => False := by
  unfold needSection
  cases h : section? name mapping with
  | some entries => exact (Ends.pure entries).congr (fun _ => by simp) fun _ => Iff.rfl
  | none => exact (Ends.reported _).congr (fun _ => by simp) fun _ => Iff.rfl

theorem ofValue_ends {v : Value} {mapping : List (Scalar × Value)} (hv : mappingOf v = .ok mapping)
    (log : List Record) : Ends (ofValue v log).1 (Made mapping) (Unmade mapping) := by
  unfold ofValue
  rw [Act.bind_ok (used_ok hv log)]
  refine (Ends.bind (needSection_ends "sandbox" mapping) fun sandbox _ hs =>
    Ends.bind (needSection_ends "toolchain" mapping) fun toolchain _ ht =>
    Ends.bind (noteUnknown_ends _ _ sandbox _) fun _ _ _ =>
    Ends.bind (noteUnknown_ends _ _ toolchain _) fun _ _ _ =>
    Ends.bind (noteUnknown_ends _ _ mapping _) fun _ _ _ =>
    Ends.bind (Ends.validate _) fun _ _ _ => Ends.pure _).congr (fun c => ?_) fun kind => ?_
  · constructor
    · rintro ⟨sandbox, hs, toolchain, ht, -, hn₁, -, hn₂, -, hn₃, -, hvalid, rfl⟩
      exact .intro hs ht ⟨hn₁, hn₂, hn₃⟩ hvalid
    · rintro ⟨hs, ht, ⟨hn₁, hn₂, hn₃⟩, hvalid⟩
      exact ⟨_, hs, _, ht, (), hn₁, (), hn₂, (), hn₃, (), hvalid, rfl⟩
  · simp only [false_or, and_false, exists_false, or_false, exists_const]
    constructor
    · rintro ⟨sandbox, hs, toolchain, ht, ⟨rfl, h⟩ | ⟨hn₁, ⟨rfl, h⟩ | ⟨hn₂, ⟨rfl, h⟩ | ⟨hn₃, h⟩⟩⟩⟩
      · exact .unshown hs ht (.inl h)
      · exact .unshown hs ht (.inr (.inl h))
      · exact .unshown hs ht (.inr (.inr h))
      · exact .stuck hs ht ⟨hn₁, hn₂, hn₃⟩ h
    · rintro (⟨hs, ht, h⟩ | ⟨hs, ht, ⟨hn₁, hn₂, hn₃⟩, h⟩)
      · refine ⟨_, hs, _, ht, ?_⟩
        grind
      · exact ⟨_, hs, _, ht, .inr ⟨hn₁, .inr ⟨hn₂, .inr ⟨hn₃, h⟩⟩⟩⟩

inductive Unread (path : Path) (data : Utf8.Bytes) : Kind → Prop
  | notText (hp : path.isJson = true) (h : Utf8.decode? data = none) : Unread path data .decoding
  | tooManyDigits {text : List Char} (hp : path.isJson = true) (ht : Tree.textOf? data = some text)
    (h : Json.parse text = .error .tooManyDigits) : Unread path data .value
  | tooDeep {text : List Char} (hp : path.isJson = true) (ht : Tree.textOf? data = some text)
    (h : Json.parse text = .error .tooDeep) : Unread path data .nesting
  | noValue {kind : Kind} (hp : path.isJson = false) (h : Yaml.parse data = .error (.noValue kind)) :
    Unread path data kind

theorem readJson_ends {path : Path} {data : Utf8.Bytes} {text : List Char} (hp : path.isJson = true)
    (ht : Tree.textOf? data = some text) :
    Ends (readJson text) (fun v => readJson text = .ok v) (Unread path data) := by
  have hunread (kind : Kind) : Unread path data kind ↔
      Json.parse text = .error .tooManyDigits ∧ Kind.value = kind ∨
        Json.parse text = .error .tooDeep ∧ Kind.nesting = kind := by
    constructor
    · rintro (⟨hp, h⟩ | ⟨hp, ht', h⟩ | ⟨hp, ht', h⟩ | ⟨hp', h⟩)
      · rw [Tree.textOf?, h] at ht
        cases ht
      · cases ht.symm.trans ht'
        exact .inl ⟨h, rfl⟩
      · cases ht.symm.trans ht'
        exact .inr ⟨h, rfl⟩
      · cases hp.symm.trans hp'
    · rintro (⟨h, rfl⟩ | ⟨h, rfl⟩)
      · exact .tooManyDigits hp ht h
      · exact .tooDeep hp ht h
  unfold readJson
  rcases hparse : Json.parse text with (_ | _ | _) | v <;> simp only [hparse] at hunread
  · exact (Ends.reported _).itself.congr (fun _ => Iff.rfl) (by simp [hunread])
  · exact (Ends.other .value).itself.congr (fun _ => Iff.rfl) (by simp [hunread])
  · exact (Ends.other .nesting).itself.congr (fun _ => Iff.rfl) (by simp [hunread])
  · exact (Ends.pure v).itself.congr (fun _ => Iff.rfl) (by simp [hunread])

theorem readYaml_ends {path : Path} (hp : path.isJson = false) (data : Utf8.Bytes) :
    Ends (readYaml path data) (fun v => readYaml path data = .ok v) (Unread path data) := by
  have hunread (kind : Kind) : Unread path data kind ↔ Yaml.parse data = .error (.noValue kind) := by
    constructor
    · rintro (⟨hp', h⟩ | ⟨hp', ht', h⟩ | ⟨hp', ht', h⟩ | ⟨_, h⟩)
      iterate 3 cases hp.symm.trans hp'
      exact h
    · exact .noValue hp
  unfold readYaml
  rcases hparse : Yaml.parse data with (_ | _ | kind) | v <;> simp only [hparse] at hunread
  · exact (Ends.reported _).itself.congr (fun _ => Iff.rfl) (by simp [hunread])
  · exact (Ends.reported _).itself.congr (fun _ => Iff.rfl) (by simp [hunread])
  · exact (Ends.other kind).itself.congr (fun _ => Iff.rfl) (by simp [hunread])
  · exact (Ends.pure v).itself.congr (fun _ => Iff.rfl) (by simp [hunread])

theorem unread_of_no_text {path : Path} {data : Utf8.Bytes} (hp : path.isJson = true)
    (h : Tree.textOf? data = none) (kind : Kind) : Unread path data kind ↔ Kind.decoding = kind := by
  constructor
  · rintro (_ | ⟨_, ht, _⟩ | ⟨_, ht, _⟩ | ⟨hp', _⟩)
    · rfl
    · cases h.symm.trans ht
    · cases h.symm.trans ht
    · cases hp.symm.trans hp'
  · rintro rfl
    exact .notText hp (Option.map_eq_none_iff.mp h)

def readBytes (path : Path) (data : Utf8.Bytes) : Except Fault Value :=
  if path.isJson then
    match Tree.textOf? data with
    | none => .error (.other .decoding none)
    | some text => readJson text
  else readYaml path data

theorem readBytes_ends (path : Path) (data : Utf8.Bytes) :
    Ends (readBytes path data) (fun v => readBytes path data = .ok v) (Unread path data) := by
  unfold readBytes
  by_cases hp : path.isJson = true
  · rw [if_pos hp]
    cases ht : Tree.textOf? data with
    | none =>
      refine (Ends.other .decoding).itself.congr (fun _ => Iff.rfl) fun kind => ?_
      rw [unread_of_no_text hp ht]
    | some text => exact readJson_ends hp ht
  · rw [if_neg hp]
    exact readYaml_ends (Bool.not_eq_true _ ▸ hp) data

theorem read_of_has {files : Tree} {path : Path} (h : files.has path = .ok true) :
    (∃ data, files.read path = .ok data) ∨ files.read path = .error .isFolder := by
  unfold Tree.has at h
  unfold Tree.read
  rcases hfind : files.find path with t | (data | _)
  · rw [hfind] at h
    cases t <;> cases h
  · exact .inl ⟨data, rfl⟩
  · exact .inr rfl

theorem readFile_ends {files : Tree} {path : Path} (hthere : files.has path = .ok true) :
    Ends (readFile files path) (fun v => ∃ data, files.read path = .ok data ∧ readBytes path data = .ok v)
      fun kind => ∃ data, files.read path = .ok data ∧ Unread path data kind := by
  unfold readFile
  obtain ⟨data, hdata⟩ | hfolder := read_of_has hthere
  · rw [hdata]
    exact (readBytes_ends path data).congr (by simp) (by simp)
  · rw [hfolder]
    exact (Ends.reported _).congr (by simp) (by simp)

def rootMapping? : Value → Option (List (Scalar × Value))
  | .null => some []
  | .map mapping => some mapping
  | _ => none

theorem mappingOf_root {v : Value} {mapping : List (Scalar × Value)} (h : rootMapping? v = some mapping) :
    isMappingOrNull v = true ∧ mappingOf v = .ok mapping := by
  unfold rootMapping? at h
  split at h
  · cases h
    exact ⟨rfl, rfl⟩
  · cases h
    cases mapping with
    | nil => exact ⟨rfl, rfl⟩
    | cons entry rest => exact ⟨rfl, rfl⟩
  · cases h

theorem not_isMappingOrNull {v : Value} (h : rootMapping? v = none) : isMappingOrNull v = false := by
  unfold rootMapping? at h
  split at h
  · cases h
  · cases h
  · rename_i hnull hmap
    unfold isMappingOrNull
    split
    · exact absurd rfl hnull
    · exact absurd rfl (hmap _)
    · rfl

def Holds (files : Tree) (path : Path) (mapping : List (Scalar × Value)) : Prop :=
  ∃ data v, files.read path = .ok data ∧ readBytes path data = .ok v ∧ rootMapping? v = some mapping

inductive Base (files : Tree) (path : Path) : Config → Prop
  | default (h : files.has path = .ok false) : Base files path {}
  | file {mapping : List (Scalar × Value)} {c : Config} (hthere : files.has path = .ok true)
    (hmapping : Holds files path mapping) (hc : Made mapping c) : Base files path c

/-- What stops loading without a word about the configuration. -/
inductive Escapes (files : Tree) (vars : Variables) (path : Path) : Kind → Prop
  | unaskable {t : Tree.Trouble} (h : files.has path = .error t) : Escapes files vars path .system
  | unread {data : Utf8.Bytes} {kind : Kind} (hthere : files.has path = .ok true)
    (hdata : files.read path = .ok data) (h : Unread path data kind) : Escapes files vars path kind
  | unmade {mapping : List (Scalar × Value)} {kind : Kind} (hthere : files.has path = .ok true)
    (hmapping : Holds files path mapping) (h : Unmade mapping kind) : Escapes files vars path kind
  | endless {c : Config} (hc : Base files path c) (h : Endless vars) : Escapes files vars path .overflow

theorem root_ends (path : Path) (v : Value) (log : List Record) :
    Ends ((do
      if !isMappingOrNull v then
        throw (.configuration ("Configuration root must be a mapping: " ++ path.text))
      ofValue v : Noted Config) log).1
      (fun c => ∃ mapping, rootMapping? v = some mapping ∧ Made mapping c)
      fun kind => ∃ mapping, rootMapping? v = some mapping ∧ Unmade mapping kind := by
  rcases h : rootMapping? v with _ | mapping
  · rw [not_isMappingOrNull h]
    exact (Ends.reported _).congr (by simp) (by simp)
  · obtain ⟨hform, hmapping⟩ := mappingOf_root h
    rw [hform]
    exact (ofValue_ends hmapping log).congr (by simp) (by simp)

theorem exists_holds {files : Tree} {path : Path} {P : List (Scalar × Value) → Prop} :
    (∃ v, (∃ data, files.read path = .ok data ∧ readBytes path data = .ok v) ∧
      ∃ mapping, rootMapping? v = some mapping ∧ P mapping) ↔
        ∃ mapping, Holds files path mapping ∧ P mapping := by
  constructor
  · rintro ⟨v, ⟨data, hdata, hv⟩, mapping, hroot, h⟩
    exact ⟨mapping, ⟨data, v, hdata, hv, hroot⟩, h⟩
  · rintro ⟨mapping, ⟨data, v, hdata, hv, hroot⟩, h⟩
    exact ⟨v, ⟨data, hdata, hv⟩, mapping, hroot, h⟩

theorem asked {files : Tree} {path : Path} {there : Bool} (h : files.has path = .ok there)
    (log : List Record) : (Act.lift (isThere files path) : Noted Bool) log = (.ok there, log) := by
  rw [isThere, h]
  rfl

theorem load_ends {files : Tree} {path : Path} (hthere : files.has path = .ok true) (log : List Record) :
    Ends (load files path log).1 (fun c => ∃ mapping, Holds files path mapping ∧ Made mapping c)
      fun kind => (∃ data, files.read path = .ok data ∧ Unread path data kind) ∨
        ∃ mapping, Holds files path mapping ∧ Unmade mapping kind := by
  unfold load
  rw [Act.bind_ok (asked hthere log)]
  simp only [Bool.not_true, Bool.false_eq_true, ↓reduceIte]
  exact (Ends.bind (readFile_ends hthere) fun v t _ => root_ends path v t).congr
    (fun _ => exists_holds) fun _ => or_congr_right exists_holds

theorem Base.validate {files : Tree} {path : Path} {c : Config} (h : Base files path c) :
    validate c = .ok () := by
  obtain _ | ⟨_, _, ⟨_, _, _, hvalid⟩⟩ := h
  · exact validate_default
  · exact hvalid

def Loaded (files : Tree) (vars : Variables) (path : Path) (c : Config) : Prop :=
  ∃ base limit, Base files path base ∧ timeLimit vars base = .ok limit ∧ c = limited vars base limit

section

variable {files : Tree} {vars : Variables} {path : Path}

theorem base_default (h : files.has path = .ok false) {c : Config} : Base files path c ↔ c = {} := by
  constructor
  · rintro (_ | ⟨hthere, _, _⟩)
    · rfl
    · cases h.symm.trans hthere
  · rintro rfl
    exact .default h

theorem base_file (h : files.has path = .ok true) {c : Config} :
    Base files path c ↔ ∃ mapping, Holds files path mapping ∧ Made mapping c := by
  constructor
  · rintro (hnone | ⟨_, hmapping, hc⟩)
    · cases h.symm.trans hnone
    · exact ⟨_, hmapping, hc⟩
  · rintro ⟨mapping, hmapping, hc⟩
    exact .file h hmapping hc

theorem escapes_unaskable {t : Tree.Trouble} (h : files.has path = .error t) {kind : Kind} :
    Escapes files vars path kind ↔ Kind.system = kind := by
  constructor
  · rintro (_ | ⟨hthere, _, _⟩ | ⟨hthere, _, _⟩ | ⟨hnone | ⟨hthere, _, _⟩, _⟩)
    · rfl
    · cases h.symm.trans hthere
    · cases h.symm.trans hthere
    · cases h.symm.trans hnone
    · cases h.symm.trans hthere
  · rintro rfl
    exact .unaskable h

theorem escapes_default (h : files.has path = .ok false) {kind : Kind} :
    Escapes files vars path kind ↔ Kind.overflow = kind ∧ Endless vars := by
  constructor
  · rintro (hnone | ⟨hthere, _, _⟩ | ⟨hthere, _, _⟩ | ⟨_, hendless⟩)
    · cases h.symm.trans hnone
    · cases h.symm.trans hthere
    · cases h.symm.trans hthere
    · exact ⟨rfl, hendless⟩
  · rintro ⟨rfl, hendless⟩
    exact .endless (.default h) hendless

theorem escapes_file (h : files.has path = .ok true) {kind : Kind} : Escapes files vars path kind ↔
    ((∃ data, files.read path = .ok data ∧ Unread path data kind) ∨
      ∃ mapping, Holds files path mapping ∧ Unmade mapping kind) ∨
      ∃ c, Base files path c ∧ Kind.overflow = kind ∧ Endless vars := by
  constructor
  · rintro (hnone | ⟨_, hdata, hunread⟩ | ⟨_, hmapping, hunmade⟩ | ⟨hc, hendless⟩)
    · cases h.symm.trans hnone
    · exact .inl (.inl ⟨_, hdata, hunread⟩)
    · exact .inl (.inr ⟨_, hmapping, hunmade⟩)
    · exact .inr ⟨_, hc, rfl, hendless⟩
  · rintro ((⟨_, hdata, hunread⟩ | ⟨_, hmapping, hunmade⟩) | ⟨_, hc, rfl, hendless⟩)
    · exact .unread h hdata hunread
    · exact .unmade h hmapping hunmade
    · exact .endless hc hendless

theorem loaded_valid {c : Config} : Loaded files vars path c ∧ validate c = .ok () ↔
    ∃ base, Base files path base ∧
      ∃ limit, timeLimit vars base = .ok limit ∧ validate c = .ok () ∧ c = limited vars base limit := by
  constructor
  · rintro ⟨⟨base, limit, hbase, hlimit, hc⟩, hvalid⟩
    exact ⟨base, hbase, limit, hlimit, hvalid, hc⟩
  · rintro ⟨base, hbase, limit, hlimit, hvalid, hc⟩
    exact ⟨⟨base, limit, hbase, hlimit, hc⟩, hvalid⟩

end

theorem read_ends (files : Tree) (vars : Variables) (path : Path) (log : List Record) :
    Ends (Manager.read files vars path log).1 (fun c => Loaded files vars path c ∧ validate c = .ok ())
      (Escapes files vars path) := by
  unfold Manager.read
  simp only [loaded_valid]
  rcases h : files.has path with t | (_ | _)
  · have hasked : (Act.lift (isThere files path) : Noted Bool) log = (.error (.other .system none), log) := by
      rw [isThere, h]
      rfl
    rw [Act.bind_error hasked]
    have hbase (c : Config) : ¬ Base files path c := by
      rintro (hnone | ⟨hthere, _, _⟩)
      · cases h.symm.trans hnone
      · cases h.symm.trans hthere
    exact (Ends.other .system).congr (fun c => by simp [hbase]) fun kind => (escapes_unaskable h).symm
  · rw [Act.bind_ok (asked h log)]
    exact (overridden_ends vars validate_default _).congr (fun c => by simp [base_default h])
      fun kind => (escapes_default h).symm
  · rw [Act.bind_ok (asked h log)]
    exact (Ends.bind ((load_ends h log).congr (fun c => (base_file h).symm) fun _ => Iff.rfl) fun c t hc =>
      overridden_ends vars hc.validate t).congr (fun _ => Iff.rfl) fun kind => (escapes_file h).symm

/-- Loading gives a configuration that passes its checks, or tells what is wrong with the configuration,
except in the cases in which something escapes. -/
theorem load_outcome (files : Tree) (vars : Variables) (m : Manager) (log : List Record) :
    (∀ m', (m.load files vars log).1 = .ok m' ↔
      ∃ c, Loaded files vars m.path c ∧ validate c = .ok () ∧ m' = { m with current := some c }) ∧
    (∀ kind, (m.load files vars log).1 = .error (.other kind none) ↔ Escapes files vars m.path kind) ∧
    ∀ f, (m.load files vars log).1 = .error f →
      (∃ message, f = .configuration message) ∨ ∃ kind, f = .other kind none := by
  have h : Ends (m.load files vars log).1
      (fun m' => ∃ c, (Loaded files vars m.path c ∧ validate c = .ok ()) ∧ { m with current := some c } = m')
      fun kind => Escapes files vars m.path kind ∨
        ∃ c, (Loaded files vars m.path c ∧ validate c = .ok ()) ∧ False :=
    Ends.bind (read_ends files vars m.path log) fun _ _ _ => Ends.pure _
  refine ⟨fun m' => (h.ok m').trans ?_, fun kind => (h.foreign kind).trans (by simp), h.told⟩
  simp only [and_assoc, eq_comm]

theorem load_not_reported : ¬ ∀ (files : Tree) (vars : Variables) (m : Manager) (log : List Record) (f : Fault),
    (m.load files vars log).1 = .error f → ∃ message, f = .configuration message := by
  intro h
  have hload : ((Manager.ofPaths {} none).load { files := [(["yz_playground.yaml"], [0xff])] } [] []).1 =
      .error (.other .decoding none) := rfl
  obtain ⟨message, hmessage⟩ := h _ _ _ _ _ hload
  cases hmessage

end Playpen.Config
