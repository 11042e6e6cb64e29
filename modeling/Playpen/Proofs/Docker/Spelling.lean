import Playpen.Proofs.Docker.Diagnosis
import Playpen.Proofs.Text.Lines

namespace Playpen

def Config.naming (c : Config) (s : String) : Config := { c with sandbox := { c.sandbox with controlPlane := .text s } }

namespace Docker

open Text (Recases IsPlain isBlank)

variable {ω τ : Type} {s name : String}

def Padded (s : String) : Prop := ∃ (choice : Choice) (before word after : List Char),
  s.toList = before ++ word ++ after ∧ (∀ c ∈ before, isBlank c = true) ∧ (∀ c ∈ after, isBlank c = true) ∧
    List.Forall₂ Recases word choice.name.toList

theorem Recased.padded (h : Recased s) : Padded s := by
  obtain ⟨choice, h⟩ := h
  exact ⟨choice, [], s.toList, [], by simp, List.forall_mem_nil _, List.forall_mem_nil _, h⟩

theorem not_isBlank_of_recases {c d : Char} (h : Recases c d) (hd : isBlank d = false) : isBlank c = false := by
  cases h with
  | itself => exact hd
  | capital hc =>
    obtain ⟨hlow, hhigh⟩ := (Text.isUpper_iff c).mp hc
    simp [isBlank]
    omega
  | kelvin => decide

theorem forall_not_isBlank {word name : List Char} (h : List.Forall₂ Recases word name)
    (hname : ∀ d ∈ name, isBlank d = false) : ∀ c ∈ word, isBlank c = false := by
  induction h with
  | nil => exact List.forall_mem_nil _
  | cons hc _ ih =>
    rw [List.forall_mem_cons] at hname ⊢
    exact ⟨not_isBlank_of_recases hc hname.1, ih hname.2⟩

theorem recased_trim_iff : Recased (Text.trim s) ↔ Padded s := by
  unfold Recased Padded
  refine exists_congr fun choice => ?_
  rw [Text.trim, String.toList_ofList]
  constructor
  · intro h
    obtain ⟨before, after, hparts, hbefore, hafter⟩ := Text.trimBy_parts isBlank s.toList
    exact ⟨before, _, after, hparts, hbefore, hafter, h⟩
  · rintro ⟨before, word, after, hparts, hbefore, hafter, h⟩
    have hword := forall_not_isBlank h fun d hd => (name_plain choice d hd).2
    rw [hparts, Text.trimBy_append hbefore hafter (fun c hc => hword c (List.mem_of_mem_head? hc))
      fun c hc => hword c (List.mem_of_getLast? hc)]
    exact h

instance : Decidable (Padded s) := decidable_of_iff _ recased_trim_iff

theorem validate_naming {c : Config} (hvalid : Config.validate c = .ok ()) :
    Config.validate (c.naming s) = .ok () ↔ Exact s := by
  have hrest := (List.forall_mem_cons.mp (Config.validate_eq_ok.mp hvalid)).2
  have hquestion : (Config.controlPlaneCheck (.text s)).question = .ok false ↔ Exact s := by
    rw [← isSome_choice?_iff]
    show (if (choice? s).isSome = true then _ else _) = _ ↔ _
    split
    · rename_i hnamed
      exact iff_of_true rfl hnamed
    · rename_i hnamed
      exact iff_of_false nofun hnamed
  rw [Config.validate_eq_ok, ← hquestion]
  constructor
  · intro h
    exact h _ List.mem_cons_self
  · intro h
    exact List.forall_mem_cons.mpr ⟨h, hrest⟩

theorem truth_text (hs : s ≠ "") : (Value.text s).truth = true := by
  simp [Value.truth, Scalar.truth, hs]

def Elsewhere [Seconds τ] (f : Failure τ) : Prop := f.isA .configuration = false

section

open Config (Fails)

variable [Seconds τ] {client : Client ω τ} {binary : Value} {limit : τ} {env : Env (Rack ω τ) τ}

theorem Elsewhere.misuse (m : Misuse) : Elsewhere (m.failure : Failure τ) := by
  cases m <;> rfl

theorem Elsewhere.notWhole (e : Double.NotWhole) : Elsewhere (e.failure : Failure τ) := by
  cases e <;> rfl

theorem unreachable_elsewhere (whole : Int) (w : ω) :
    Fails Elsewhere ((Client.unreachable : Client ω Double).fromEnv whole w).1 := .error rfl

theorem fails_bind {σ ε α β : Type} {P : ε → Prop} {x : Act σ ε α} {f : α → Act σ ε β} {t : σ} (hx : Fails P (x t).1)
    (hf : ∀ a t, Fails P (f a t).1) : Fails P ((x >>= f) t).1 := by
  rcases h : x t with ⟨e | a, t'⟩ <;> rw [h] at hx
  · rw [Act.bind_error h]
    exact .error (hx e rfl)
  · rw [Act.bind_ok h]
    exact hf a t'

theorem fails_rescue {σ ε α : Type} {P : ε → Prop} {x : Act σ ε α} {handler : ε → Act σ ε α} {t : σ}
    (h : ∀ e t', x t = (.error e, t') → Fails P (handler e t').1) : Fails P (Act.rescue x handler t).1 := by
  unfold Act.rescue
  rcases hx : x t with ⟨e | a, t'⟩
  · exact h e t' hx
  · exact .ok a

theorem clientLimit_elsewhere : Fails Elsewhere (Api.clientLimit limit) := by
  unfold Api.clientLimit
  split
  · cases Seconds.truncate limit with
    | error e => exact .error (.notWhole e)
    | ok n => exact .ok n
  · exact .ok 1

theorem connect_elsewhere (hclient : ∀ whole w, Fails Elsewhere (client.fromEnv whole w).1) :
    Fails Elsewhere (Api.connect client.onRack limit env).1 := by
  unfold Api.connect
  refine fails_bind clientLimit_elsewhere fun whole env => ?_
  refine fails_rescue fun e env₁ he => ?_
  have hfrom : Elsewhere e := hclient whole env.world.outer e (congrArg Prod.fst he)
  split
  · exact .error rfl
  · exact .error hfrom

theorem establish_elsewhere (hs : s ≠ "") (hclient : ∀ whole w, Fails Elsewhere (client.fromEnv whole w).1) :
    Fails Elsewhere (establish client ⟨.text s, binary, .ok limit⟩ env).1 ↔ Padded s := by
  have hname : (Act.lift (normalized (.text s)) : Effect (Rack ω τ) τ String) env =
      (.ok (Text.lower (Text.trim s)), env) := by
    rw [normalized, truth_text hs]
    rfl
  rw [← recased_trim_iff, ← exact_lower_iff, ← isSome_choice?_iff]
  unfold establish
  rw [Act.bind_ok hname]
  rcases choice? (Text.lower (Text.trim s)) with _ | (_ | _)
  · refine iff_of_false (fun h => ?_) nofun
    cases h _ rfl
  · refine iff_of_true (fails_bind (.ok limit) fun limit env => fails_bind ?_ fun text env => .ok _) rfl
    cases binaryText binary with
    | error m => exact .error (.misuse m)
    | ok text => exact .ok text
  · exact iff_of_true
      (fails_bind (.ok limit) fun limit env => fails_bind (connect_elsewhere hclient) fun _ env => .ok _) rfl

end

namespace Doctor

def Passes (checks : List Check) : Prop := ∃ c ∈ checks, c.name = "configured_control_plane" ∧ c.status = .pass

variable {σ : Type} [Clock ω Double] {shell : Shell ω Double} {client : Client ω Double} {a : Attributes}
  {limit : Except Misuse Double} {part : σ → Env (Rack ω Double) Double} {put : Env (Rack ω Double) Double → σ → σ}
  {probe : Option (Act σ (Failure Double) String)} {t t' : σ} {checks : List Check}

theorem Examined.passes_iff {complete : Bool} (h : Examined a name checks complete) :
    Passes checks ↔ (choice? name).isSome = true := by
  have hname := configuredCheck_name name
  cases h with
  | unsupported h => simp [Passes, h, configuredCheck_none h]
  | unhealthy h detail => simp [Passes, h, hname, configuredCheck_some h]
  | healthy h detail => simp [Passes, h, hname, configuredCheck_some h]

theorem passes_append {c : Check} (hc : c.name ≠ "configured_control_plane") :
    Passes (checks ++ [c]) ↔ Passes checks := by
  simp [Passes, or_and_right, exists_or, hc]

theorem Comes.passes_iff (h : Comes shell client part put a limit probe t checks t') :
    ∃ name, controlPlaneName a = .ok name ∧ (Passes checks ↔ (choice? name).isSome = true) := by
  cases h with
  | unprobed hexamine _ =>
    obtain ⟨name, hname, hexamined⟩ := examine_ok hexamine
    exact ⟨name, hname, hexamined.passes_iff⟩
  | probed hexamine _ _ _ =>
    obtain ⟨name, hname, hexamined⟩ := examine_ok hexamine
    rw [passes_append (by rw [toolchainCheck_name]; decide)]
    exact ⟨name, hname, hexamined.passes_iff⟩

theorem controlPlaneName_text (hs : s ≠ "") (ha : a "control_plane" = some (.text s)) :
    controlPlaneName a = .ok (Text.lower s) := by
  have hsetting : setting a "control_plane" (.text "docker-cli") = .text s := by
    rw [setting, ha]
    rfl
  rw [controlPlaneName, hsetting, textOr, if_pos (truth_text hs)]
  rfl

theorem run_passes_iff (hs : s ≠ "") (ha : a "control_plane" = some (.text s))
    (h : run shell client part put a limit probe t = (.ok checks, t')) : Passes checks ↔ Recased s := by
  obtain ⟨name, hname, hpasses⟩ := (run_comes h).passes_iff
  obtain rfl : Text.lower s = name := Except.ok.inj ((controlPlaneName_text hs ha).symm.trans hname)
  rw [hpasses, isSome_choice?_iff, exact_lower_iff]

theorem run_of_not_recased (hs : s ≠ "") (ha : a "control_plane" = some (.text s)) {text : String}
    (hbinary : Doctor.binary a = .ok text) (h : ¬Recased s) :
    (run shell client part put a limit probe t).1 = .ok [configuredCheck (Text.lower s)] := by
  have hnone : choice? (Text.lower s) = none := by
    rw [← exact_lower_iff, ← isSome_choice?_iff] at h
    simpa using h
  have hexamine : examine shell client a limit (part t) = (.ok ([configuredCheck (Text.lower s)], false), part t) := by
    have hname := controlPlaneName_text hs ha
    rw [examine, Act.bind_ok (used_eq_ok_iff.mpr ⟨hname, rfl⟩), Act.bind_ok (used_eq_ok_iff.mpr ⟨hbinary, rfl⟩), hnone]
    rfl
  rw [(run_unprobed hexamine (.inl rfl) []).1]

end Doctor

section

open Config (Fails)
open Doctor (Passes)

variable {σ : Type} [Clock ω Double] {client : Client ω Double}

/-- A name passes validation if it is exact, a control plane is made for it if it is one but for case and blanks around
it, and a diagnosis passes it if it is one but for case. The three agree on all spellings but those that are not exact
and of which a control plane is made. -/
theorem spellings_accepted {c : Config} (hvalid : Config.validate c = .ok ()) (hs : s ≠ "")
    (hclient : ∀ whole w, Fails Elsewhere (client.fromEnv whole w).1) (shell : Shell ω Double) (binary : Value)
    (limit : Double) (env : Env (Rack ω Double) Double) (part : σ → Env (Rack ω Double) Double)
    (put : Env (Rack ω Double) Double → σ → σ) (probe : Option (Act σ (Failure Double) String)) (t : σ) :
    let a := (c.naming s).sandbox.attribute?
    let validated := Config.validate (c.naming s) = .ok ()
    let made := Fails Elsewhere (establish client ⟨.text s, binary, .ok limit⟩ env).1
    let diagnosis := (Doctor.run shell client part put a (Doctor.timeLimit a) probe t).1
    (validated ↔ Exact s) ∧ (made ↔ Padded s) ∧
    (¬Recased s → ∀ text, Doctor.binary a = .ok text → ∃ checks, diagnosis = .ok checks) ∧
    ∀ checks, diagnosis = .ok checks → (Passes checks ↔ Recased s) ∧
      ((validated ↔ made) ∧ (validated ↔ Passes checks) ↔ (Padded s → Exact s)) := by
  intro a validated made diagnosis
  have hvalidated : validated ↔ Exact s := validate_naming hvalid
  have hmade : made ↔ Padded s := establish_elsewhere hs hclient
  refine ⟨hvalidated, hmade, fun h text htext => ⟨_, Doctor.run_of_not_recased hs rfl htext h⟩, ?_⟩
  intro checks hchecks
  have hpasses : Passes checks ↔ Recased s := by
    rcases hrun : Doctor.run shell client part put a (Doctor.timeLimit a) probe t with ⟨r, t'⟩
    obtain rfl : r = .ok checks := (congrArg Prod.fst hrun).symm.trans hchecks
    exact Doctor.run_passes_iff hs rfl hrun
  refine ⟨hpasses, ?_⟩
  rw [hvalidated, hmade, hpasses]
  constructor
  · rintro ⟨h, -⟩
    exact h.mpr
  · intro h
    exact ⟨⟨fun he => he.recased.padded, h⟩, ⟨Exact.recased, fun hr => h hr.padded⟩⟩

theorem spellings_accepted_kelvin :
    let c := ({} : Config).naming "DOC\u212aER-CLI"
    let diagnosis := (Doctor.run Script.shell Client.unreachable id (fun env _ => env) c.sandbox.attribute?
      (Doctor.timeLimit c.sandbox.attribute?) none Doctor.cheerful).1
    Config.validate {} = .ok () ∧ Config.validate c ≠ .ok () ∧
      Fails Elsewhere (establish (Client.unreachable : Client Script.Host Double)
        ⟨.text "DOC\u212aER-CLI", .text "docker", .ok (Double.ofInt 30)⟩ Doctor.cheerful).1 ∧
      ∃ checks, diagnosis = .ok checks ∧ Passes checks := by
  intro c diagnosis
  have hexact : ¬Exact "DOC\u212aER-CLI" := by decide
  have hrecased : Recased "DOC\u212aER-CLI" := by decide +kernel
  obtain ⟨hvalidated, hmade, -, hdiagnosis⟩ := spellings_accepted Config.validate_default (s := "DOC\u212aER-CLI")
    (by decide) unreachable_elsewhere Script.shell (.text "docker") (Double.ofInt 30) Doctor.cheerful id
    (fun env _ => env) none Doctor.cheerful
  have hchecks : ∃ checks, diagnosis = .ok checks := ⟨_, rfl⟩
  obtain ⟨checks, hchecks⟩ := hchecks
  exact ⟨Config.validate_default, fun h => hexact (hvalidated.mp h), hmade.mpr hrecased.padded, checks, hchecks,
    (hdiagnosis checks hchecks).1.mpr hrecased⟩

theorem spellings_disagree :
    let validated (s : String) := Config.validate (({} : Config).naming s) = .ok ()
    let made (s : String) := Fails Elsewhere (establish (Client.unreachable : Client Script.Host Double)
      ⟨.text s, .text "docker", .ok (Double.ofInt 30)⟩ Doctor.cheerful).1
    let passes (s : String) := ∃ checks, (Doctor.run Script.shell Client.unreachable id (fun env _ => env)
      (({} : Config).naming s).sandbox.attribute? (.ok (Double.ofInt 30)) none Doctor.cheerful).1 = .ok checks ∧
        Passes checks
    (¬validated "Docker-CLI" ∧ made "Docker-CLI" ∧ passes "Docker-CLI") ∧
      ¬validated " docker-cli " ∧ made " docker-cli " ∧ ¬passes " docker-cli " := by
  intro validated made passes
  have hvalidated (s : String) : validated s ↔ Exact s := validate_naming Config.validate_default
  have hmade (s : String) (hs : s ≠ "") : made s ↔ Padded s := establish_elsewhere hs unreachable_elsewhere
  have hpasses (s : String) (hs : s ≠ "") (h : passes s) : Recased s := by
    obtain ⟨checks, hchecks, h⟩ := h
    exact (Doctor.run_passes_iff hs rfl (Prod.ext hchecks rfl)).mp h
  have hcapitals : Recased "Docker-CLI" := by decide +kernel
  have hpadded : Padded " docker-cli " ∧ ¬Recased " docker-cli " := by decide +kernel
  refine ⟨⟨?_, (hmade _ (by decide)).mpr hcapitals.padded, ?_⟩, ?_, (hmade _ (by decide)).mpr hpadded.1,
    fun h => hpadded.2 (hpasses _ (by decide) h)⟩
  · rw [hvalidated]
    decide
  · have hchecks : (Doctor.run Script.shell Client.unreachable id (fun env _ => env)
        (({} : Config).naming "Docker-CLI").sandbox.attribute? (.ok (Double.ofInt 30)) none Doctor.cheerful).1 =
        .ok _ := rfl
    exact ⟨_, hchecks, (Doctor.run_passes_iff (by decide) rfl (Prod.ext hchecks rfl)).mpr hcapitals⟩
  · rw [hvalidated]
    decide

end

end Docker

end Playpen
