import Playpen.Proofs.Config.Fields
import Playpen.Proofs.Config.Typed
import Playpen.Proofs.Json.Lines
import Playpen.Proofs.Json.RoundTrip
import Playpen.Proofs.Marks
import Playpen.Proofs.Yaml.RoundTrip
import Playpen.Config.Manager

namespace Playpen

namespace Value

inductive IsFlat : Value → Prop
  | scalar {s : Scalar} (h : s.IsPlain) : IsFlat (.scalar s)
  | list {items : List Scalar} (h : ∀ s ∈ items, s.IsPlain) : IsFlat (.list (items.map .scalar))

theorem IsFlat.isData {v : Value} (h : v.IsFlat) : v.IsData := by
  cases h with
  | scalar h => exact .scalar h
  | list h => exact .list h

theorem deepest_scalars (items : List Scalar) : deepest (items.map .scalar) = 0 := by
  induction items with
  | nil => rfl
  | cons s items ih => rw [List.map_cons, deepest, ih, depth, Nat.max_self]

theorem IsFlat.depth_le {v : Value} (h : v.IsFlat) : v.depth ≤ 1 := by
  cases h with
  | scalar h => exact Nat.zero_le 1
  | list h => rw [depth, deepest_scalars]

theorem record_depth_le {k : Nat} {es : List (String × Value)} (h : ∀ e ∈ es, e.2.depth ≤ k) :
    (record es).depth ≤ k + 1 := by
  rw [record, depth]
  induction es with
  | nil => exact Nat.succ_le_succ (Nat.zero_le k)
  | cons e es ih =>
    obtain ⟨he, hes⟩ := List.forall_mem_cons.mp h
    rw [List.map_cons, deepestEntry]
    have := ih hes
    omega

theorem anyKnotted_scalars (items : List Scalar) : anyKnotted (items.map .scalar) = false := by
  induction items with
  | nil => rfl
  | cons s items ih => rw [List.map_cons, anyKnotted, ih]; rfl

theorem isKnotted_data {v : Value} (h : v.IsData) : v.isKnotted = false := by
  induction h with
  | scalar h => rfl
  | list h => rw [isKnotted, anyKnotted_scalars]
  | @record es hne hnames hdistinct h ih =>
    rw [record, isKnotted]
    clear hne hnames hdistinct h
    induction es with
    | nil => rfl
    | cons e es ihes =>
      obtain ⟨he, hes⟩ := List.forall_mem_cons.mp ih
      rw [List.map_cons, anyEntryKnotted, he, Bool.false_or]
      exact ihes hes

theorem IsFlat.unmarked {v : Value} (h : v.IsFlat) : v.unmarked = v := by
  have hplain {s : Scalar} (h : s.IsPlain) : s.unmarked = s := by cases h <;> rfl
  cases h with
  | scalar h => rw [Value.unmarked, hplain h]
  | list h =>
    have hitems := List.map_congr_left fun s hs => hplain (h s hs)
    rw [Value.unmarked, unmarkedItems_scalars, hitems, List.map_id']

theorem atMostZero_unmarked (v : Value) : v.unmarked.atMostZero = v.atMostZero := by
  cases v with
  | scalar s => cases s <;> rfl
  | _ => rfl

theorem IsText.isFlat {v : Value} (h : v.IsText) : v.IsFlat := by
  obtain ⟨s, rfl⟩ := h
  exact .scalar (.text s)

theorem IsFlag.isFlat {v : Value} (h : v.IsFlag) : v.IsFlat := by
  obtain ⟨b, rfl⟩ := h
  exact .scalar (.bool b)

theorem IsInteger.isFlat {v : Value} (h : v.IsInteger) : v.IsFlat := by
  obtain ⟨i, rfl, hi⟩ := h
  exact .scalar (.int hi)

theorem IsReal.isFlat {v : Value} (h : v.IsReal) : v.unmarked.IsFlat := by
  cases h with
  | float x => exact .scalar (.float x)
  | nan mark => exact .scalar (.float .nan)
  | int h =>
    obtain ⟨i, rfl, hi⟩ := h
    exact .scalar (.int hi)

end Value

instance (k : String) : Decidable (IsName k) :=
  decidable_of_iff (k.toList ≠ [] ∧ k.toList.all isNameChar = true ∧ Yaml.Schema.tagOf k.toList = Yaml.strTag ∧
  k.toList.length ≤ 100)
    ⟨fun h => ⟨h.1, h.2.1, h.2.2.1, h.2.2.2⟩, fun h => ⟨h.nonempty, h.letters, h.text, h.short⟩⟩

namespace Config

def Sandbox.unmarked (s : Sandbox) : Sandbox :=
  { s with maxExecutionTime := s.maxExecutionTime.unmarked, controlTimeout := s.controlTimeout.unmarked }

def unmarked (c : Config) : Config := { c with sandbox := c.sandbox.unmarked }

/-- Equal in every field, where NaN counts as equal to NaN. -/
def Alike (c d : Config) : Prop := c.unmarked = d.unmarked

section Fields

variable {σ : Type} {fields : List (Field σ)} {s : σ}

def named (fields : List (Field σ)) (s : σ) : List (String × Value) := fields.map fun f => (f.name, f.get s)

theorem entries_eq (fields : List (Field σ)) (s : σ) : Value.map (Field.entries fields s) =
    record (named fields s) := by
  simp [record, named, Field.entries]

theorem isData_named (hne : fields ≠ []) (hnames : ∀ k ∈ fields.map Field.name, IsName k)
    (hdistinct : (fields.map Field.name).Nodup)
    (h : ∀ f ∈ fields, (f.get s).IsFlat) : (record (named fields s)).IsData ∧ (record (named fields s)).depth ≤ 2 := by
  have hentries {P : String × Value → Prop} (h : ∀ f ∈ fields, P (f.name, f.get s)) : ∀ e ∈ named fields s, P e := by
    simpa [named] using h
  refine ⟨.record (by simpa [named] using hne) (hentries fun f hf => hnames _ (List.mem_map_of_mem hf)) ?_
    (hentries fun f hf => (h f hf).isData), Value.record_depth_le (hentries fun f hf => (h f hf).depth_le)⟩
  rwa [named, List.map_map]

end Fields

theorem Sandbox.Typed.flat {s : Sandbox} (h : s.Typed) : ∀ f ∈ Sandbox.fields, (f.get s.unmarked).IsFlat := by
  have hname : s.containerName.IsFlat := by
    rcases h.containerName with hnull | htext
    · rw [hnull]
      exact .scalar .null
    · exact htext.isFlat
  simp only [Sandbox.fields, List.forall_mem_cons]
  exact ⟨h.controlPlane.isFlat, h.image.isFlat, hname, h.containerPrefix.isFlat, h.user.isFlat, h.workingDir.isFlat,
    h.memoryLimit.isFlat,
    h.maxExecutionTime.isFlat, h.networkEnabled.isFlat, h.privileged.isFlat, h.controlTimeout.isFlat,
    h.defaultSessionKey.isFlat, h.versionSessionKey.isFlat, h.recycleOnTimeout.isFlat, h.dockerBinary.isFlat, nofun⟩

theorem unmarkedEntries_entries {σ : Type} (fields : List (Field σ)) (s : σ) :
    Value.unmarkedEntries (Field.entries fields s) = fields.map fun f => (.text f.name, (f.get s).unmarked) := by
  induction fields with
  | nil => rfl
  | cons f fields ih =>
    rw [Field.entries, List.map_cons, Value.unmarkedEntries, List.map_cons, ← ih]
    rfl

theorem Sandbox.Typed.get_unmarked {s : Sandbox} (h : s.Typed) : ∀ f ∈ Sandbox.fields, (f.get s).unmarked =
    f.get s.unmarked := by
  have hname : s.containerName.unmarked = s.containerName := by
    rcases h.containerName with hnull | htext
    · rw [hnull]
      rfl
    · exact htext.isFlat.unmarked
  simp only [Sandbox.fields, List.forall_mem_cons]
  exact ⟨h.controlPlane.isFlat.unmarked, h.image.isFlat.unmarked, hname, h.containerPrefix.isFlat.unmarked,
    h.user.isFlat.unmarked,
    h.workingDir.isFlat.unmarked, h.memoryLimit.isFlat.unmarked, rfl, h.networkEnabled.isFlat.unmarked,
    h.privileged.isFlat.unmarked,
    rfl, h.defaultSessionKey.isFlat.unmarked, h.versionSessionKey.isFlat.unmarked, h.recycleOnTimeout.isFlat.unmarked,
    h.dockerBinary.isFlat.unmarked, nofun⟩

theorem Toolchain.Typed.flat {t : Toolchain} (h : t.Typed) : ∀ f ∈ Toolchain.fields, (f.get t).IsFlat := by
  have hmarkers : t.noiseMarkers.IsFlat := by
    obtain ⟨markers, hmarkers⟩ := h.noiseMarkers
    rw [hmarkers, show markers.map Value.text = (markers.map Scalar.text).map .scalar by simp]
    refine .list fun s hs => ?_
    obtain ⟨marker, -, rfl⟩ := List.mem_map.mp hs
    exact .text marker
  simp only [Toolchain.fields, List.forall_mem_cons]
  exact ⟨h.compiler.isFlat, h.sourceFilename.isFlat, h.runCommand.isFlat, h.generatedCodeCommand.isFlat,
    h.versionCommand.isFlat, h.generatedCodeBegin.isFlat, h.generatedCodeEnd.isFlat, hmarkers, nofun⟩

def parts (c : Config) : List (String × Value) := [
  ("name", c.name),
  ("sandbox", record (named Sandbox.fields c.sandbox)),
  ("toolchain", record (named Toolchain.fields c.toolchain)),
  ("max_code_size", c.maxCodeSize),
  ("log_level", c.logLevel)]

theorem toMap_record (c : Config) : c.toMap = record c.parts := by
  rw [toMap, entries_eq, entries_eq]
  rfl

variable {c : Config}

theorem names_parts (c : Config) : c.parts.map Prod.fst =
    ["name", "sandbox", "toolchain", "max_code_size", "log_level"] := rfl

theorem isName_parts : ∀ e ∈ c.parts, IsName e.1 := by
  have hall : ∀ k ∈ ["name", "sandbox", "toolchain", "max_code_size", "log_level"], IsName k := by decide
  exact fun e he => hall _ (names_parts c ▸ List.mem_map_of_mem he)

theorem parts_ne_nil (c : Config) : c.parts ≠ [] := List.cons_ne_nil _ _

theorem distinct_parts : (c.parts.map Prod.fst).Nodup := by
  rw [names_parts]
  decide

theorem Typed.data (h : c.Typed) : ∀ e ∈ c.unmarked.parts, e.2.IsData ∧ e.2.depth ≤ 2 := by
  have hflat {v : Value} (h : v.IsFlat) : v.IsData ∧ v.depth ≤ 2 := ⟨h.isData, Nat.le_succ_of_le h.depth_le⟩
  simp only [parts, List.forall_mem_cons]
  exact ⟨hflat h.name.isFlat, isData_named (by decide) (by decide) (by decide) h.sandbox.flat,
    isData_named (by decide) (by decide) (by decide) h.toolchain.flat, hflat h.maxCodeSize.isFlat,
    hflat h.logLevel.isFlat, nofun⟩

theorem Typed.isData (h : c.Typed) : c.unmarked.toMap.IsData := by
  rw [toMap_record]
  exact .record (List.cons_ne_nil _ _) isName_parts distinct_parts fun e he => (h.data e he).1

theorem Typed.depth_le (h : c.Typed) : c.unmarked.toMap.depth ≤ 3 := by
  rw [toMap_record]
  exact Value.record_depth_le fun e he => (h.data e he).2

theorem Typed.toMap_unmarked (h : c.Typed) : c.toMap.unmarked = c.unmarked.toMap := by
  have hsandbox : Value.unmarkedEntries (Field.entries Sandbox.fields c.sandbox) =
      Field.entries Sandbox.fields c.sandbox.unmarked := by
    rw [unmarkedEntries_entries]
    exact List.map_congr_left fun f hf => by rw [h.sandbox.get_unmarked f hf]
  have htoolchain : Value.unmarkedEntries (Field.entries Toolchain.fields c.toolchain) =
      Field.entries Toolchain.fields c.toolchain := by
    rw [unmarkedEntries_entries]
    exact List.map_congr_left fun f hf => by rw [(h.toolchain.flat f hf).unmarked]
  simp only [toMap, Value.unmarked, Value.unmarkedEntries, hsandbox, htoolchain, h.name.isFlat.unmarked,
    h.maxCodeSize.isFlat.unmarked, h.logLevel.isFlat.unmarked, unmarked]

theorem validate_unmarked (c : Config) : validate c.unmarked = validate c := by
  rw [validate_eq, validate_eq]
  simp only [checks, unmarked, Sandbox.unmarked, Value.atMostZero_unmarked]

theorem Typed.draft (h : c.Typed) (path : Path) : ∃ text, Config.draft c path = ⟨text, none⟩ ∧
    ∀ files : Tree, files.read path = .ok (Utf8.encode text) → readFile files path = .ok c.unmarked.toMap := by
  have hdepth := h.depth_le
  by_cases hjson : path.isJson = true
  · have hlayout : ({ indent := some 2 } : Json.Layout).integer = Scalar.integerText := rfl
    obtain ⟨text, hdraft, hparse⟩ := Json.parse_draft hlayout h.isData (Nat.le_trans hdepth (by decide))
    have hsteady := Json.steady_draft hlayout c.unmarked.toMap
    rw [hdraft] at hsteady
    refine ⟨text, ?_, fun files hread => ?_⟩
    · rw [Config.draft, if_pos hjson, ← Json.draft_unmarked, h.toMap_unmarked, hdraft]
    · rw [readFile, hread]
      dsimp only
      rw [if_pos hjson, Tree.textOf?_encode hsteady]
      dsimp only
      rw [readJson, hparse]
  · have hshallow : ¬ maxYamlDepth < c.toMap.depth := by
      have : maxYamlDepth = 325 := rfl
      rw [← Value.depth_unmarked, h.toMap_unmarked]
      omega
    have hroom : 2 * (record c.unmarked.parts).depth < Yaml.Sheet.width := by
      rw [← toMap_record]
      exact lt_of_le_of_lt (Nat.mul_le_mul_left 2 hdepth) (by decide)
    obtain ⟨text, hprint, hparse⟩ := Yaml.parse_print (parts_ne_nil c.unmarked) isName_parts distinct_parts
      (fun e he => (h.data e he).1) hroom
    rw [← toMap_record] at hprint hparse
    refine ⟨text, ?_, fun files hread => ?_⟩
    · rw [Config.draft, if_neg hjson, if_neg hshallow, ← Yaml.print_unmarked, h.toMap_unmarked, hprint]
      rfl
    · have hyaml : readYaml path (Utf8.encode text) = .ok c.unmarked.toMap := by
        unfold readYaml
        rw [hparse]
      rw [readFile, hread]
      exact (if_neg hjson).trans hyaml

def CanHold (files : Tree) (path : Path) : Prop :=
  ((do Tree.makeFolders path.parent; Tree.write path [] : Act Tree Tree.Trouble Unit) files).1 = .ok ()

def reporting (p : Path) (x : Act Tree Tree.Trouble Unit) : Act Tree Fault Unit := fun files =>
  let (result, files) := x files
  (result.mapError (fileFault saveFailure · p), files)

theorem reporting_ok_iff {p : Path} {x : Act Tree Tree.Trouble Unit} {files files' : Tree} :
    reporting p x files = (.ok (), files') ↔ x files = (.ok (), files') := by
  rw [reporting]
  rcases x files with ⟨_ | _, t⟩ <;> simp [Except.mapError]

def finished (d : Json.Draft) : Act Tree Fault (List Char) :=
  match d.stop with
  | none => pure d.text
  | some misuse => throw misuse.failure

theorem save_eq (path : Path) (c : Config) : save path c = (do
    reporting path.parent (Tree.makeFolders path.parent)
    if c.toMap.isKnotted || maxDepth < c.toMap.depth then throw (.other .nesting none)
    reporting path (Tree.write path (Utf8.encode (Config.draft c path).text))
    finished (Config.draft c path)) := by
  unfold save
  dsimp only
  generalize Config.draft c path = d
  rfl

theorem Typed.saved (h : c.Typed) {files : Tree} {path : Path} (hfile : CanHold files path) :
    ∃ text files', save path c files = (.ok text, files') ∧ isThere files' path = .ok true ∧ readFile files' path =
    .ok c.unmarked.toMap := by
  obtain ⟨text, hdraft, hread⟩ := h.draft path
  obtain ⟨u, files₁, hfolders, hempty⟩ := Act.ok_of_bind (show _ = (Except.ok (), _) from Prod.ext hfile rfl)
  obtain ⟨files₂, hwrite⟩ := Tree.write_any hempty (Utf8.encode text)
  refine ⟨text, files₂, ?_, ?_, hread files₂ (Tree.read_write hwrite)⟩
  · have hplain : (c.toMap.isKnotted || decide (maxDepth < c.toMap.depth)) = false := by
      have : maxDepth = 490 := rfl
      have hdepth := h.depth_le
      rw [← Value.isKnotted_unmarked, ← Value.depth_unmarked, h.toMap_unmarked, Value.isKnotted_data h.isData,
        Bool.false_or, decide_eq_false_iff_not]
      omega
    rw [save_eq, Act.bind_ok (reporting_ok_iff.mpr hfolders), hplain, if_neg Bool.false_ne_true, hdraft]
    exact (Act.bind_ok (reporting_ok_iff.mpr hwrite)).trans rfl
  · rw [isThere, Tree.has_write hwrite]
    rfl

theorem canHold_of_save {files files' : Tree} {path : Path} {text : List Char}
    (h : save path c files = (.ok text, files')) :
    CanHold files path := by
  rw [save_eq] at h
  obtain ⟨_, files₁, hfolders, h⟩ := Act.ok_of_bind h
  split at h
  · cases h
  · obtain ⟨_, files₂, hwrite, -⟩ := Act.ok_of_bind h
    obtain ⟨files₃, hempty⟩ := Tree.write_any (reporting_ok_iff.mp hwrite) []
    rw [CanHold, Act.bind_ok (reporting_ok_iff.mp hfolders), hempty]

theorem load_file {files : Tree} {path : Path} (hthere : isThere files path = .ok true)
    (hread : readFile files path = .ok c.toMap)
    (hmarkers : ∀ s, c.toolchain.noiseMarkers ≠ .text s) (hvalid : validate c = .ok ()) (log : List Record) :
    load files path log = (.ok c, log) := by
  have hmapping : (!isMappingOrNull c.toMap) = false := rfl
  rw [load, hthere, Act.bind_ok (lift_ok _ log), if_neg (by simp), hread]
  refine (Act.bind_ok (lift_ok _ log)).trans ?_
  dsimp only
  rw [hmapping, if_neg Bool.false_ne_true, ofValue_toMap hmarkers hvalid log]

theorem withVariables_nil (c : Config) (log : List Record) : withVariables [] c log = (.ok c, log) := rfl

theorem overridden_nil (hvalid : validate c = .ok ()) (log : List Record) : overridden [] c log = (.ok c, log) := by
  rw [overridden, Act.bind_ok (withVariables_nil c log), hvalid]
  rfl

theorem Typed.unmarked_alike (h : c.Typed) : c.unmarked.Alike c := by
  rw [Alike, unmarked, unmarked, Sandbox.unmarked, Sandbox.unmarked]
  simp only [h.sandbox.maxExecutionTime.isFlat.unmarked, h.sandbox.controlTimeout.isFlat.unmarked]

/-- A configuration with values of the declared types that passes its checks can be saved wherever there can be a
file, and is loaded from there as it was, as JSON and as YAML, by itself and by the manager of that file. -/
theorem saved_loads (ht : c.Typed) (hvalid : validate c = .ok ()) (files : Tree) (path : Path) (log : List Record) :
    ((∃ text files', save path c files = (.ok text, files')) ↔ CanHold files path) ∧
      ∀ text files', save path c files = (.ok text, files') →
        (∃ c', load files' path log = (.ok c', log) ∧ c'.Alike c) ∧
        ∀ m : Manager, m.path = path → m.current = some c → m.save files = (.ok text, files') ∧
          ∃ m' c', m.load files' [] log = (.ok m', log) ∧ m'.path = path ∧ m'.current = some c' ∧ c'.Alike c := by
  refine ⟨⟨fun ⟨text, files', h⟩ => canHold_of_save h, fun h => ?_⟩, fun text files' h => ?_⟩
  · obtain ⟨text, files', hsave, -⟩ := ht.saved h
    exact ⟨text, files', hsave⟩
  obtain ⟨text₁, files₁, hsave, hthere, hread⟩ := ht.saved (canHold_of_save h)
  obtain ⟨rfl, rfl⟩ : text = text₁ ∧ files' = files₁ := by
    have := h.symm.trans hsave
    simpa using this
  have hmarkers (s : String) : c.unmarked.toolchain.noiseMarkers ≠ .text s := by
    obtain ⟨markers, hmarkers⟩ := ht.toolchain.noiseMarkers
    rw [show c.unmarked.toolchain.noiseMarkers = _ from hmarkers]
    nofun
  have hvalid' : validate c.unmarked = .ok () := (validate_unmarked c).trans hvalid
  have hload := load_file hthere hread hmarkers hvalid' log
  refine ⟨⟨c.unmarked, hload, ht.unmarked_alike⟩, ?_⟩
  rintro ⟨_, _⟩ rfl rfl
  refine ⟨h, ⟨_, some c.unmarked⟩, c.unmarked, ?_, rfl, rfl, ht.unmarked_alike⟩
  rw [Manager.load, Manager.read, hthere, bind_assoc, Act.bind_ok (lift_ok _ log), if_pos rfl, bind_assoc,
    Act.bind_ok hload, Act.bind_ok (overridden_nil hvalid' log)]
  rfl

def tuned : Config where
  name := .text "lab: one\n  # \"two\" \x01 é"
  sandbox := {
    controlPlane := .text "docker-api"
    containerName := .text "- lab"
    memoryLimit := .int 64
    maxExecutionTime := .float ((Double.ofInt 5).divNat 2)
    privileged := .bool true
    controlTimeout := .scalar (.nan 0) }
  toolchain := { noiseMarkers := .list [.text "", .text "yes", .text "1e3"] }

theorem typed_tuned : tuned.Typed where
  name := ⟨_, rfl⟩
  sandbox := { typed_default.sandbox with
    controlPlane := ⟨_, rfl⟩
    containerName := .inr ⟨_, rfl⟩
    memoryLimit := ⟨_, rfl, by decide⟩
    maxExecutionTime := .float _
    privileged := ⟨_, rfl⟩
    controlTimeout := .nan 0 }
  toolchain := { typed_default.toolchain with noiseMarkers := ⟨["", "yes", "1e3"], rfl⟩ }
  maxCodeSize := typed_default.maxCodeSize
  logLevel := typed_default.logLevel

theorem saved_loads_tuned :
    let path : Path := ⟨"", ["etc", "playground.yaml"]⟩
    tuned.Typed ∧ validate tuned = .ok () ∧ CanHold {} path ∧
      ((∃ text files', save path tuned {} = (.ok text, files')) ↔ CanHold {} path) ∧
        ∀ text files', save path tuned {} = (.ok text, files') →
          (∃ c', load files' path [] = (.ok c', []) ∧ c'.Alike tuned) ∧
          ∀ m : Manager, m.path = path → m.current = some tuned → m.save {} = (.ok text, files') ∧
            ∃ m' c', m.load files' [] [] = (.ok m', []) ∧ m'.path = path ∧ m'.current = some c' ∧ c'.Alike tuned := by
  intro path
  have hvalid : validate tuned = .ok () := validate_eq_ok_of_toOption (by decide +kernel)
  have hcan : CanHold {} ⟨"", ["etc", "playground.yaml"]⟩ := rfl
  exact ⟨typed_tuned, hvalid, hcan, saved_loads typed_tuned hvalid {} path []⟩

end Config

end Playpen
