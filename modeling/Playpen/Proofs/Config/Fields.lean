import Playpen.Proofs.Config.Validation
import Playpen.Config.Layers

namespace Playpen.Config

section Fields

variable {σ : Type} {fields : List (Field σ)} {s : σ}

theorem find?_entries (hdistinct : (fields.map Field.name).Nodup) {f : Field σ} (hf : f ∈ fields) :
    Value.find? f.name (Field.entries fields s) = some (f.get s) := by
  induction fields with
  | nil => cases hf
  | cons g fields ih =>
    rw [List.map_cons, List.nodup_cons] at hdistinct
    rw [Field.entries, List.map_cons, Value.find?]
    by_cases hname : g.name = f.name
    · rw [if_pos (congrArg Scalar.text hname)]
      rcases List.mem_cons.mp hf with rfl | hf
      · rfl
      · exact absurd (hname ▸ List.mem_map_of_mem hf) hdistinct.1
    · rw [if_neg fun h => hname (Scalar.text.inj h)]
      rcases List.mem_cons.mp hf with rfl | hf
      · exact absurd rfl hname
      · exact ih hdistinct.2 hf

theorem assign_eq {mapping : List (Scalar × Value)} (h : ∀ f ∈ fields, Value.find? f.name mapping = some (f.get s))
    (start : σ) :
    Field.assign fields mapping start = fields.foldl (fun t f => f.set (f.get s) t) start := by
  induction fields generalizing start with
  | nil => rfl
  | cons f fields ih =>
    obtain ⟨hf, hfields⟩ := List.forall_mem_cons.mp h
    rw [Field.assign, List.foldl_cons, hf]
    exact ih hfields _

theorem unknownKeys_nil {known : List String} {mapping : List (Scalar × Value)}
    (h : ∀ e ∈ mapping, ∃ name ∈ known, e.1 = .text name) : unknownKeys known mapping = .ok [] := by
  have hnone : (mapping.map (·.1)).filter (fun k => !known.any fun name => k = .text name) = [] := by
    simpa using h
  rw [unknownKeys, hnone, List.mapM_nil]
  exact congrArg Except.ok List.mergeSort_nil

theorem noteUnknown_nil {known : List String} {mapping : List (Scalar × Value)}
    (h : ∀ e ∈ mapping, ∃ name ∈ known, e.1 = .text name)
    (title : String) (log : List Record) : noteUnknown title known mapping log = (.ok (), log) := by
  rw [noteUnknown, Act.bind_ok (used_ok (unknownKeys_nil h) log)]
  rfl

theorem known_entries (fields : List (Field σ)) (s : σ) :
    ∀ e ∈ Field.entries fields s, ∃ name ∈ fieldNames fields, e.1 = .text name := by
  intro e he
  obtain ⟨f, hf, rfl⟩ := List.mem_map.mp he
  exact ⟨f.name, List.mem_map_of_mem hf, rfl⟩

end Fields

theorem assign_sandbox (s start : Sandbox) : Field.assign Sandbox.fields (Field.entries Sandbox.fields s) start = s :=
  (assign_eq (fun _ hf => find?_entries (by decide) hf) start).trans rfl

theorem assign_toolchain (t start : Toolchain) :
    Field.assign Toolchain.fields (Field.entries Toolchain.fields t) start = t :=
  (assign_eq (fun _ hf => find?_entries (by decide) hf) start).trans rfl

theorem lift_ok {α : Type} (a : α) (log : List Record) : (Act.lift (.ok a) : Noted α) log = (.ok a, log) := rfl

def entries (c : Config) : List (Scalar × Value) := [
  (.text "name", c.name),
  (.text "sandbox", .map (Field.entries Sandbox.fields c.sandbox)),
  (.text "toolchain", .map (Field.entries Toolchain.fields c.toolchain)),
  (.text "max_code_size", c.maxCodeSize),
  (.text "log_level", c.logLevel)]

theorem layered_entries {c : Config} (h : ∀ s, c.toolchain.noiseMarkers ≠ .text s) :
    layered c.entries (Field.entries Sandbox.fields c.sandbox) (Field.entries Toolchain.fields c.toolchain) = c := by
  have htop : ∀ f ∈ topFields, Value.find? f.name c.entries = some (f.get c) := by
    simp only [topFields, List.forall_mem_cons]
    exact ⟨rfl, rfl, rfl, nofun⟩
  have hmarkers : listOfMarkers c.toolchain = c.toolchain := by
    rw [listOfMarkers]
    split
    next s hs => exact absurd hs (h s)
    next => rfl
  rw [layered, assign_sandbox, assign_toolchain, hmarkers, assign_eq htop]
  rfl

theorem ofValue_toMap {c : Config} (h : ∀ s, c.toolchain.noiseMarkers ≠ .text s) (hvalid : validate c = .ok ())
    (log : List Record) :
    ofValue c.toMap log = (.ok c, log) := by
  have hmapping : mappingOf c.toMap = .ok c.entries := rfl
  have hsandbox : needSection "sandbox" c.entries = .ok (Field.entries Sandbox.fields c.sandbox) := rfl
  have htoolchain : needSection "toolchain" c.entries = .ok (Field.entries Toolchain.fields c.toolchain) := rfl
  have hknown : ∀ e ∈ c.entries, ∃ name ∈ "sandbox" :: "toolchain" :: fieldNames topFields, e.1 = .text name := by
    simp only [entries, List.forall_mem_cons]
    exact ⟨⟨_, by decide, rfl⟩, ⟨_, by decide, rfl⟩, ⟨_, by decide, rfl⟩, ⟨_, by decide, rfl⟩, ⟨_, by decide, rfl⟩,
      nofun⟩
  rw [ofValue, Act.bind_ok (used_ok hmapping log), hsandbox, Act.bind_ok (lift_ok _ log), htoolchain,
    Act.bind_ok (lift_ok _ log),
    Act.bind_ok (noteUnknown_nil (known_entries _ _) _ log), Act.bind_ok (noteUnknown_nil (known_entries _ _) _ log),
    Act.bind_ok (noteUnknown_nil hknown _ log), layered_entries h, hvalid, Act.bind_ok (lift_ok _ log)]
  rfl

end Playpen.Config
