import Playpen.Proofs.Docker.Processes
import Playpen.Proofs.Docker.Requests
import Playpen.Proofs.Yaml.Number
/-!
What a new environment is isolated with. The `docker` command is told so in words, and the client library in
arguments: read in the way of `docker run`, the words say what the arguments do.
-/
namespace Playpen.Docker

open Act (Does)
open Numeral (ofDigits)
open Text (isAsciiDigit)

variable {ω τ : Type}

structure Isolation where
  image : Value
  command : List Value
  name : Option Value
  user : Option Value
  workingDir : Option Value
  memoryLimit : Option Int
  memorySwap : Option Int
  network : Option Value
  privileged : Bool
  detached : Bool
deriving DecidableEq

def RunArguments.isolation (a : RunArguments) : Isolation where
  image := a.image
  command := a.command
  name := some a.name
  user := some a.user
  workingDir := some a.workingDir
  memoryLimit := some a.memoryLimit
  memorySwap := some a.memorySwap
  network := a.networkMode.map .text
  privileged := a.privileged.truth
  detached := a.detach

inductive Opt
  | detach
  | privileged
  | name
  | user
  | workdir
  | memory
  | memorySwap
  | network
deriving DecidableEq

namespace Opt

def named? : String → Option Opt
  | "--detach" => some detach
  | "--privileged" => some privileged
  | "--name" => some name
  | "--user" => some user
  | "--workdir" => some workdir
  | "--memory" => some memory
  | "--memory-swap" => some memorySwap
  | "--network" => some network
  | _ => none

def isSwitch : Opt → Bool
  | detach | privileged => true
  | _ => false

end Opt

structure RunLine where
  options : List (Opt × Value) := []
  image : Value
  command : List Value

namespace RunLine

def given (o : Opt) (v : Value) (l : RunLine) : RunLine := { l with options := (o, v) :: l.options }

def isOption : Value → Bool
  | .text w => w.toList.head? == some '-'
  | _ => false

def opt? : Value → Option Opt
  | .text w => Opt.named? w
  | _ => none

/-- The first word that is no option is the image, and all words after it are the command. A word that looks like
an option and is none of those known here is not read. -/
def read? : List Value → Option RunLine
  | [] => none
  | w :: rest =>
    if isOption w then
      match opt? w with
      | none => none
      | some o =>
        if o.isSwitch then (read? rest).map (given o (.bool true))
        else match rest with
          | [] => none
          | v :: rest => (read? rest).map (given o v)
    else some { image := w, command := rest }

def value? (l : RunLine) (o : Opt) : Option Value := ((l.options.filter (·.1 = o)).getLast?).map (·.2)

def amount? : Value → Option Int
  | .text w =>
    let (negative, ds) := Numeral.sign w.toList
    if ds ≠ [] ∧ ds.all isAsciiDigit then some (if negative then -(ofDigits ds : Int) else ofDigits ds) else none
  | _ => none

def amountOf? (l : RunLine) (o : Opt) : Option (Option Int) :=
  match l.value? o with
  | none => some none
  | some v => (amount? v).map some

def isolation? (l : RunLine) : Option Isolation := do
  let memoryLimit ← l.amountOf? .memory
  let memorySwap ← l.amountOf? .memorySwap
  pure {
    image := l.image
    command := l.command
    name := l.value? .name
    user := l.value? .user
    workingDir := l.value? .workdir
    memoryLimit
    memorySwap
    network := l.value? .network
    privileged := (l.value? .privileged).isSome
    detached := (l.value? .detach).isSome }

section

variable {w : String} {o : Opt} {v : Value} {rest : List Value}

theorem read?_switch (hw : w.toList.head? = some '-') (ho : Opt.named? w = some o) (hs : o.isSwitch = true) :
    read? (.text w :: rest) = (read? rest).map (given o (.bool true)) := by
  have hoption : isOption (.text w) = true := by simp [isOption, hw]
  simp only [read?, hoption, if_true, opt?, ho, hs]

theorem read?_taking (hw : w.toList.head? = some '-') (ho : Opt.named? w = some o) (hs : o.isSwitch = false) :
    read? (.text w :: v :: rest) = (read? rest).map (given o v) := by
  have hoption : isOption (.text w) = true := by simp [isOption, hw]
  simp only [read?, hoption, if_true, opt?, ho, hs, Bool.false_eq_true, if_false]

theorem read?_image (hv : isOption v = false) : read? (v :: rest) = some { image := v, command := rest } := by
  simp only [read?, hv, Bool.false_eq_true, if_false]

end

theorem amount?_toString (i : Int) : amount? (.text (toString i)) = some i := by
  have hne : Nat.toDigits 10 i.natAbs ≠ [] := Nat.toDigits_ne_nil
  obtain ⟨c, t, hcons⟩ := List.exists_cons_of_ne_nil hne
  have hdigits := Numeral.toDigits_digits i.natAbs
  have hc : isAsciiDigit c = true := List.all_eq_true.mp hdigits c (hcons ▸ List.mem_cons_self)
  have hsign : Numeral.sign (toString i).toList = (decide (i < 0), Nat.toDigits 10 i.natAbs) := by
    rw [Yaml.toString_signText, Yaml.sign_signText _ ⟨c, t, hcons, hc⟩]
  simp only [amount?, hsign, Numeral.ofDigits_toDigits, hdigits, ne_eq, hne, not_false_eq_true, and_self, if_true]
  by_cases hneg : i < 0
  · simp only [hneg, decide_true, if_true]
    congr 1
    omega
  · simp only [hneg, decide_false, Bool.false_eq_true, if_false]
    congr 1
    omega

theorem amountOf?_toString {l : RunLine} {o : Opt} {i : Int} (h : l.value? o = some (.text (toString i))) :
    l.amountOf? o = some (some i) := by
  rw [amountOf?, h]
  exact congrArg (Option.map some) (amount?_toString i)

theorem isolation?_amounts {l : RunLine} {i j : Int} (hi : l.value? .memory = some (.text (toString i)))
    (hj : l.value? .memorySwap = some (.text (toString j))) :
    l.isolation? = some {
      image := l.image
      command := l.command
      name := l.value? .name
      user := l.value? .user
      workingDir := l.value? .workdir
      memoryLimit := some i
      memorySwap := some j
      network := l.value? .network
      privileged := (l.value? .privileged).isSome
      detached := (l.value? .detach).isSome } := by
  rw [isolation?, amountOf?_toString hi, amountOf?_toString hj]
  rfl

end RunLine

def isolation? : List Value → Option Isolation
  | _ :: .text "run" :: rest => (RunLine.read? rest).bind RunLine.isolation?
  | _ => none

namespace Cli

variable {c : Cli τ} {s : EnvironmentSpec} {words : List Value}

theorem runArgs_isOk : (c.runArgs s).isOk = (Scalar.isWritable s.memoryLimit && Scalar.isWritable s.memorySwap) := by
  cases hm : Scalar.isWritable s.memoryLimit <;> cases hw : Scalar.isWritable s.memorySwap <;>
    simp [runArgs, Value.display, Scalar.display, Scalar.written, Scalar.integerText, hm, hw]
  all_goals rfl

theorem display_amount {i : Int} (h : Scalar.isWritable i = true) : (Value.int i).display = .ok (toString i) := by
  simp only [Value.display, Scalar.display, Scalar.written, Scalar.integerText, h, if_true, Except.map,
    String.ofList_toList]

theorem read?_permissions (himage : RunLine.isOption s.image = false) :
    RunLine.read? ((if s.networkEnabled.truth then [] else texts ["--network", "none"]) ++
        (if s.privileged.truth then texts ["--privileged"] else []) ++ s.image :: s.command) =
      some {
        options := (if s.networkEnabled.truth then [] else [(.network, .text "none")]) ++
          (if s.privileged.truth then [(.privileged, .bool true)] else [])
        image := s.image
        command := s.command } := by
  have hrest : RunLine.read? (s.image :: s.command) = some { image := s.image, command := s.command } :=
    RunLine.read?_image himage
  have hprivileged :
      RunLine.read? ((if s.privileged.truth then texts ["--privileged"] else []) ++ s.image :: s.command) = some {
        options := if s.privileged.truth then [(.privileged, .bool true)] else []
        image := s.image
        command := s.command } := by
    cases s.privileged.truth with
    | false => exact hrest
    | true => exact (RunLine.read?_switch (o := .privileged) rfl rfl rfl).trans (congrArg (Option.map _) hrest)
  rw [List.append_assoc]
  cases s.networkEnabled.truth with
  | true => exact hprivileged
  | false => exact (RunLine.read?_taking (o := .network) rfl rfl rfl).trans (congrArg (Option.map _) hprivileged)

theorem isolation?_runArgs (himage : RunLine.isOption s.image = false) (h : c.runArgs s = .ok words) :
    isolation? words = some (RunArguments.of s).isolation := by
  have hok := runArgs_isOk (c := c) (s := s)
  rw [h, eq_comm] at hok
  obtain ⟨hmemory, hswap⟩ := (Bool.and_eq_true _ _).mp hok
  have hwords : c.runArgs s = .ok (c.binary :: .text "run" :: .text "--detach" :: .text "--name" :: s.name ::
      .text "--user" :: s.user :: .text "--workdir" :: s.workingDir :: .text "--memory" ::
      .text (toString s.memoryLimit) :: .text "--memory-swap" :: .text (toString s.memorySwap) ::
      ((if s.networkEnabled.truth then [] else texts ["--network", "none"]) ++
        (if s.privileged.truth then texts ["--privileged"] else []) ++ s.image :: s.command)) := by
    simp [runArgs, display_amount hmemory, display_amount hswap, texts, bind, Except.bind, pure, Except.pure]
  cases h.symm.trans hwords
  rw [isolation?, RunLine.read?_switch (o := .detach) rfl rfl rfl, RunLine.read?_taking (o := .name) rfl rfl rfl,
    RunLine.read?_taking (o := .user) rfl rfl rfl, RunLine.read?_taking (o := .workdir) rfl rfl rfl,
    RunLine.read?_taking (o := .memory) rfl rfl rfl, RunLine.read?_taking (o := .memorySwap) rfl rfl rfl,
    read?_permissions himage]
  simp only [Option.map_some, Option.bind_some, RunArguments.isolation, RunArguments.of]
  cases s.networkEnabled.truth <;> cases s.privileged.truth <;> exact RunLine.isolation?_amounts rfl rfl

theorem create_launches [Seconds τ] [Clock ω τ] (shell : Shell ω τ) (c : Cli τ) (s : EnvironmentSpec)
    (env : Env (Rack (Noted ω τ) τ) τ) :
    Does (c.create shell.noted.onRack s) env fun _ launched _ =>
      (∃ m, c.runArgs s = .error m) ∧ launched = [] ∨
        ∃ l ending, c.runArgs s = .ok l.words ∧ launched = [.launch l ending] := by
  cases hwords : c.runArgs s with
  | error m =>
    have hstop : (Act.used (c.runArgs s) : Effect (Rack (Noted ω τ) τ) τ _) env = (.error m.failure, env) := by
      rw [hwords]
      rfl
    exact .stop hstop rfl (.inl ⟨⟨m, rfl⟩, rfl⟩)
  | ok words =>
    have hgo : (Act.used (c.runArgs s) : Effect (Rack (Noted ω τ) τ) τ _) env = (.ok words, env) := by
      rw [hwords]
      rfl
    refine .step hgo rfl (.bind (does_ask c words "create" (by rintro i ⟨⟩) none [0]) ?_ ?_)
    · rintro output _ env₁ ⟨ending, rfl, -, -⟩
      cases output with
      | none => exact .stop rfl rfl (.inr ⟨_, _, rfl, rfl⟩)
      | some bytes =>
        refine .step rfl rfl ?_
        dsimp only
        split
        · exact .stop rfl rfl (.inr ⟨_, _, rfl, rfl⟩)
        · exact .pure (.inr ⟨_, _, rfl, rfl⟩)
    · rintro e _ env₁ ⟨ending, rfl, -, -⟩
      exact .inr ⟨_, _, rfl, rfl⟩

end Cli

theorem Api.create_calls [Seconds τ] [Clock ω τ] (client : Client ω τ) (s : EnvironmentSpec)
    (env : Env (Rack (Noted ω τ) τ) τ) :
    Does (Api.create client.noted.onRack s) env fun _ called _ => ∃ reply, called = [.run (.of s) reply] := by
  refine .step (t := env) rfl rfl
    (.bind (does_reporting _ (.run _) fun e env₁ _ => does_traced ⟨_, rfl⟩ _ _ e) ?_ ?_)
  · rintro id _ env₁ ⟨-, -⟩
    refine .bind (does_traceSince ..) ?_ ?_
    · rintro _ _ env₂ ⟨rfl, -, -⟩
      exact .pure ⟨_, rfl⟩
    · rintro e _ env₂ ⟨rfl, -, -⟩
      exact ⟨_, rfl⟩
  · rintro f _ env₁ h
    cases h with
    | reported => exact ⟨_, rfl⟩
    | foreign => exact ⟨_, rfl⟩

/-- Whatever the image, unless it looks like an option: where the command line can be written, the words of the
process that is launched say of a new environment what the arguments of the library's call do, and both leave it
without a network exactly when it is to have none. -/
theorem create_isolates_alike [Seconds τ] [Clock ω τ] (shell : Shell ω τ) (client : Client ω τ) (c : Cli τ)
    {s : EnvironmentSpec} {image : String} (himage : s.image = .text image) (hdash : image.toList.head? ≠ some '-') :
    (∀ env : Env (Rack (Noted ω τ) τ) τ, Does (c.create shell.noted.onRack s) env fun _ launched _ =>
      if Scalar.isWritable s.memoryLimit && Scalar.isWritable s.memorySwap then
        ∃ l ending, launched = [.launch l ending] ∧ isolation? l.words = some (RunArguments.of s).isolation
      else launched = []) ∧
    (∀ env : Env (Rack (Noted ω τ) τ) τ, Does (Api.create client.noted.onRack s) env fun _ called _ =>
      ∃ reply, called = [.run (.of s) reply]) ∧
    (RunArguments.of s).isolation.network = if s.networkEnabled.truth then none else some (.text "none") := by
  have hword : RunLine.isOption s.image = false := by
    rw [himage]
    simpa [RunLine.isOption] using hdash
  refine ⟨fun env => (Cli.create_launches shell c s env).mono fun _ launched _ h => ?_, Api.create_calls client s, ?_⟩
  · rw [← Cli.runArgs_isOk (c := c)]
    obtain ⟨⟨m, hm⟩, rfl⟩ | ⟨l, ending, hwords, rfl⟩ := h
    · rw [hm]
      rfl
    · rw [hwords]
      exact ⟨l, ending, rfl, Cli.isolation?_runArgs hword hwords⟩
  · rw [RunArguments.isolation, RunArguments.of]
    cases s.networkEnabled.truth <;> rfl

def lookalike : EnvironmentSpec where
  image := .text "yz"
  name := .text "--privileged"
  user := .text "--network"
  workingDir := .text "-d"
  memoryLimit := 536870912
  memorySwap := -1
  command := [.text "--network", .text "none", .text "--privileged"]

theorem create_isolates_alike_lookalike :
    let c : Cli Double := ⟨.text "docker", Double.ofInt 30⟩
    "yz".toList.head? ≠ some '-' ∧
      (RunArguments.of lookalike).isolation = {
        image := .text "yz"
        command := [.text "--network", .text "none", .text "--privileged"]
        name := some (.text "--privileged")
        user := some (.text "--network")
        workingDir := some (.text "-d")
        memoryLimit := some 536870912
        memorySwap := some (-1)
        network := some (.text "none")
        privileged := false
        detached := true } ∧
      Does (c.create Script.shell.noted.onRack lookalike) (Script.rack (.cli c) [] {}) fun _ launched _ =>
        ∃ l ending, launched = [.launch l ending] ∧
          isolation? l.words = some (RunArguments.of lookalike).isolation := by
  intro c
  have hdash : "yz".toList.head? ≠ some '-' := by decide
  have h := (create_isolates_alike Script.shell (Client.unreachable : Client Script.Host Double) c
    (s := lookalike) rfl hdash).1 (Script.rack (.cli c) [] {})
  exact ⟨hdash, rfl, h⟩

end Playpen.Docker
