import Playpen.Proofs.Archive.RoundTrip
import Playpen.Proofs.Plane.Scripted
import Playpen.Proofs.Runner.Calls
import Playpen.Proofs.Text.Units

namespace Playpen

open Act (Does used)
open PlaneCall (Only)
open Utf8 (Bytes)

theorem Text.Codec.run?_eq_none_iff {α : Type} {p : α → Bool} {xs : List α} (place : Nat) :
    run? p place xs = none ↔ ∀ a ∈ xs, p a = false := by
  induction xs generalizing place with
  | nil => simp [run?]
  | cons a xs ih => cases ha : p a <;> simp [run?, ha, ih]

inductive Raw.Holds : Raw → Bytes → Prop
  | bytes (data : Bytes) : Holds (.bytes data) data
  | text (t : String) : Holds (.ofString t) (Utf8.encodeString t)

namespace Staging

variable {τ : Type}

theorem sourceBytes_holds {source : Raw} {data : Bytes} (h : source.Holds data) :
    (sourceBytes source : Except (Failure τ) Bytes) = .ok data := by
  cases h with
  | bytes => rfl
  | text t =>
    have hwhole : Text.Codec.run? Text.Units.isHalf 0 (t.toList.map Char.toNat) = none := by
      rw [Text.Codec.run?_eq_none_iff]
      exact List.forall_mem_map.mpr fun c _ => Text.Units.isHalf_toNat c
    rw [Raw.ofString, sourceBytes, hwhole]
    exact congrArg Except.ok (Utf8.data_ofPoints t.toList)

section

variable [Seconds τ] {name : String} {data : Bytes} {wall : τ} {now : Int}

theorem archive_of_writable (hnow : Seconds.truncate wall = .ok now)
    (h : Archive.isWritable ⟨name, 0o644, now, data⟩ = true) :
    archive (.text name) data wall = .ok (Archive.encode ⟨name, 0o644, now, data⟩) := by
  rw [archive, hnow]
  exact if_pos h

theorem archive_of_not_writable (hnow : Seconds.truncate wall = .ok now)
    (h : Archive.isWritable ⟨name, 0o644, now, data⟩ = false) :
    ∃ detail, archive (.text name) data wall = .error (.workspace detail) := by
  rw [archive, hnow]
  exact ⟨_, if_neg (by rw [h]; exact Bool.false_ne_true)⟩

end

theorem sourceBytes_of_half {points : List Nat} (h : ∃ n ∈ points, 0xd800 ≤ n ∧ n ≤ 0xdfff) :
    ∃ detail, (sourceBytes (.text points) : Except (Failure τ) Bytes) = .error (.workspace detail) := by
  obtain ⟨n, hn, hrange⟩ := h
  have hhalf := Text.Units.isHalf_iff.mpr hrange
  cases hrun : Text.Codec.run? Text.Units.isHalf 0 points with
  | none => simp [(Text.Codec.run?_eq_none_iff 0).mp hrun n hn] at hhalf
  | some found => exact ⟨_, by rw [sourceBytes, hrun]⟩

end Staging

namespace Runner

variable {ω τ α β : Type}

def Issues (ops : List PlaneCall.Op) (x : RunnerAct (Recorded ω τ) τ α) : Prop :=
  ∀ s, Does x s fun _ added s' => Only ops added ∧ Keeps s.runner s'.runner

section

variable {ops : List PlaneCall.Op}

theorem Issues.silent {x : RunnerAct (Recorded ω τ) τ α}
    (hc : ∀ s, Recording.calls (x s).2 = Recording.calls s) (hk : ∀ s, Keeps s.runner (x s).2.runner) :
    Issues ops x :=
  fun s => .of_eq rfl (hc s) ⟨.nil ops, hk s⟩

theorem Issues.bind {x : RunnerAct (Recorded ω τ) τ α} {f : α → RunnerAct (Recorded ω τ) τ β}
    (hx : Issues ops x) (hf : ∀ a, Issues ops (f a)) : Issues ops (x >>= f) := by
  intro s
  refine .bind (hx s) ?_ fun e added s' h => h
  rintro a added s' ⟨hadded, hk⟩
  refine (hf a s').mono ?_
  rintro r more s'' ⟨hmore, hk'⟩
  exact ⟨PlaneCall.only_append.mpr ⟨hadded, hmore⟩, hk.trans hk'⟩

theorem Issues.ite {c : Prop} [Decidable c] {x y : RunnerAct (Recorded ω τ) τ α} (hx : Issues ops x)
    (hy : Issues ops y) : Issues ops (if c then x else y) := by
  split
  · exact hx
  · exact hy

theorem Issues.read (f : Seat (Recorded ω τ) τ → α) : Issues ops (Act.read f) :=
  .silent (fun _ => rfl) fun s => .refl s.runner

theorem Issues.lift (r : Except (Failure τ) α) : Issues (ω := ω) ops (Act.lift r) :=
  .silent (fun _ => rfl) fun s => .refl s.runner

theorem Issues.effect {x : Effect (Recorded ω τ) τ α} (hx : ∀ env, Does x env fun _ added _ => Only ops added) :
    Issues ops (Seat.effect x) := by
  intro s
  refine (Seat.does_effect (hx s.env)).mono ?_
  rintro r added s' ⟨hr, hadded⟩
  exact ⟨hadded, hr ▸ .refl s'.runner⟩

theorem Issues.note (level : Level) (message : String → Except Misuse String) :
    Issues (ω := ω) (τ := τ) ops (Seat.note level message) := by
  refine .bind (.silent (fun _ => rfl) fun s => .refl s.runner) fun s => .effect fun env => ?_
  unfold Env.noteUsing
  rcases s.runner.key.display >>= message with m | t
  · exact .of_eq rfl rfl (.nil ops)
  · exact .of_eq rfl rfl (.nil ops)

end

variable [Seconds τ] [Clock ω τ] {plane : ControlPlane ω τ}

theorem Issues.createEnvironment (plane : ControlPlane ω τ) :
    Issues [.create, .isRunning] (createEnvironment plane.recorded) := by
  refine .bind (.read _) fun r => .bind (.lift _) fun parts => ?_
  refine .bind (.effect fun env => .of_eq rfl rfl (.nil _)) fun number => .bind (.effect fun env => ?_) fun id => ?_
  · refine Env.does_timed ((Env.does_create plane _ _ env).mono ?_)
    rintro r added s' rfl
    simp [Only, PlaneCall.op]
  · exact .bind (.note _ _) fun _ => .lift (.ok id)

theorem Issues.start (plane : ControlPlane ω τ) : Issues [.create, .isRunning] (start plane.recorded) := by
  refine .bind (.read _) fun r => .ite (.lift (.ok ())) (.ite ?_ ?_)
  · exact .bind (.createEnvironment plane) fun id => .silent (fun _ => rfl) fun s => ⟨rfl, rfl, rfl, rfl⟩
  · refine .bind (.effect fun env => Env.does_recorded.mono ?_) fun running => ?_
    · rintro r added s' rfl
      simp [Only, PlaneCall.op]
    have hattach (name) : Issues (ω := ω) [.create, .isRunning] (do
        Seat.update fun r => { r with environment := some name }
        Seat.note (τ := τ) .info fun key => do
          let name ← name.display
          pure s!"Session '{key}' attached to environment {name}") :=
      .bind (.silent (fun _ => rfl) fun s => ⟨rfl, rfl, rfl, rfl⟩) fun _ => .note _ _
    exact .ite (.bind (.lift _) fun name => .bind (.lift (.error _)) fun _ => hattach _) (hattach _)

theorem Issues.requireEnvironment (plane : ControlPlane ω τ) :
    Issues [.create, .isRunning] (requireEnvironment plane.recorded) := by
  refine .bind (.read _) fun r => .ite (.bind (.lift _) fun key => .bind (.lift (.error _)) fun _ => ?_) ?_
  all_goals
    refine .ite (.bind (.start plane) fun _ => ?_) ?_
    all_goals
      refine .bind (.read _) fun r => ?_
      split
      · exact .lift (.ok _)
      · exact .lift (.error _)

section

variable {s s₁ : Seat (Recorded ω τ) τ} {id : EnvironmentId} {source : Raw}

theorem inject_unstaged {e : Failure τ} (hready : requireEnvironment plane.recorded s = (.ok id, s₁))
    (hsource : Staging.sourceBytes source = .error e) :
    inject plane.recorded source s = (.error e, s₁) := by
  unfold inject
  rw [Act.bind_ok hready, hsource]
  rfl

theorem inject_unpacked {e : Failure τ} {data : Bytes}
    (hready : requireEnvironment plane.recorded s = (.ok id, s₁))
    (hsource : (Staging.sourceBytes source : Except (Failure τ) Bytes) = .ok data)
    (harchive : Staging.archive s₁.runner.settings.sourceFilename (Staging.withNewline data)
      (Clock.wall s₁.env.world) = .error e) :
    inject plane.recorded source s = (.error e, s₁) := by
  unfold inject
  rw [Act.bind_ok hready, hsource]
  show (Act.lift (Staging.archive _ _ _) >>= _) s₁ = _
  rw [harchive]
  rfl

theorem inject_packed {data archive : Bytes} (hready : requireEnvironment plane.recorded s = (.ok id, s₁))
    (hsource : (Staging.sourceBytes source : Except (Failure τ) Bytes) = .ok data)
    (harchive : Staging.archive s₁.runner.settings.sourceFilename (Staging.withNewline data)
      (Clock.wall s₁.env.world) = .ok archive) :
    let out := inject plane.recorded source s
    out.2.env.world.calls = s₁.env.world.calls ++
      [.inject s₁.runner.link id s₁.runner.settings.workingDir archive out.1] := by
  intro out
  have hout : out = Seat.effect (Env.timed "sandbox.inject"
      (plane.recorded.inject s₁.runner.link id s₁.runner.settings.workingDir archive)) s₁ := by
    show inject plane.recorded source s = _
    unfold inject
    rw [Act.bind_ok hready, hsource]
    show (Act.lift (Staging.archive _ _ _) >>= _) s₁ = _
    rw [harchive]
    rfl
  have hdelivered : Does (Seat.effect (Env.timed "sandbox.inject"
      (plane.recorded.inject s₁.runner.link id s₁.runner.settings.workingDir archive))) s₁ fun r added s' =>
        s'.runner = s₁.runner ∧
          added = [.inject s₁.runner.link id s₁.runner.settings.workingDir archive r] :=
    Seat.does_effect (Env.does_timed Env.does_recorded)
  obtain ⟨added, hc, _, hadded⟩ := hdelivered
  rw [hout]
  exact hadded ▸ hc

/-- A submission that gets to the control plane is delivered once, to the working directory, as an
archive that holds one file: its name as configured, its date the whole seconds of the clock, its bytes
the submission with a final newline. What keeps it from getting there, once there is an environment, is
half a pair in its text or an extended header of 8 GiB, which takes a name of gigabytes. -/
theorem inject_delivers {name : String} (hname : s.runner.settings.sourceFilename = .text name)
    (hzero : '\x00' ∉ name.toList) (hready : requireEnvironment plane.recorded s = (.ok id, s₁))
    (source : Raw) :
    let out := inject plane.recorded source s
    ∃ first, s₁.env.world.calls = s.env.world.calls ++ first ∧ (∀ c ∈ first, c.op ≠ .inject) ∧
      (∀ data now, source.Holds data → Seconds.truncate (Clock.wall s₁.env.world : τ) = .ok now →
        let file : Archive := ⟨name, 0o644, now, if data.getLast? = some 10 then data else data ++ [10]⟩
        (file.isWritable = true → ∃ archive,
          out.2.env.world.calls = s.env.world.calls ++ first ++
            [.inject s.runner.link id s.runner.settings.workingDir archive out.1] ∧
          Archive.files? archive = some [file] ∧ 0 < archive.length ∧ archive.length % 10240 = 0) ∧
        (file.isWritable = false → out.2.env.world.calls = s.env.world.calls ++ first ∧
          ∃ detail, out.1 = .error (.workspace detail)) ∧
        ((Utf8.encodeString name).length + (Nat.toDigits 10 file.data.length).length + (toString now).length ≤
          4000000000 → file.isWritable = true)) ∧
      (∀ points, source = .text points → (∃ n ∈ points, 0xd800 ≤ n ∧ n ≤ 0xdfff) →
        out.2.env.world.calls = s.env.world.calls ++ first ∧ ∃ detail, out.1 = .error (.workspace detail)) := by
  intro out
  obtain ⟨first, hfirst, honly, hk⟩ := Issues.requireEnvironment plane s
  rw [hready] at hfirst hk
  have hfirst : s₁.env.world.calls = s.env.world.calls ++ first := hfirst
  refine ⟨first, hfirst, fun c hc hop => ?_, ?_, ?_⟩
  · simpa [hop] using honly c hc
  · intro data now hholds hnow file
    have hsource := Staging.sourceBytes_holds (τ := τ) hholds
    refine ⟨fun hwritable => ?_, fun hwritable => ?_, fun hlength => Archive.isWritable_of_length hlength⟩
    · have harchive := Staging.archive_of_writable hnow hwritable
      rw [← hname, ← hk.settings] at harchive
      have hcalls := inject_packed hready hsource harchive
      rw [hk.link, hk.settings, hfirst] at hcalls
      have hstorable : file.Storable := ⟨hzero, show 0o644 < 0o10000000 by decide, hwritable⟩
      exact ⟨file.encode, hcalls, Archive.files?_encode hstorable, Archive.length_encode file⟩
    · obtain ⟨detail, harchive⟩ := Staging.archive_of_not_writable hnow hwritable
      rw [← hname, ← hk.settings] at harchive
      have hout : out = _ := inject_unpacked hready hsource harchive
      rw [hout]
      exact ⟨hfirst, detail, rfl⟩
  · rintro points rfl hhalf
    obtain ⟨detail, hsource⟩ := Staging.sourceBytes_of_half (τ := τ) hhalf
    have hout : out = _ := inject_unstaged hready hsource
    rw [hout]
    exact ⟨hfirst, detail, rfl⟩

end

theorem inject_delivers_line :
    let r : Runner Double :=
      { key := .text "k", settings := Script.settings, link := 0, environment := some (.text "env") }
    let out := inject Script.plane.recorded Script.submission.source ⟨r, { world := ⟨{}, []⟩ }⟩
    ∃ archive, out.2.env.world.calls = [.inject 0 (.text "env") (.text "/work") archive out.1] ∧
      Archive.files? archive = some [⟨"main.yz", 0o644, 0, [109, 10]⟩] ∧ 0 < archive.length ∧
      archive.length % 10240 = 0 := by
  intro r out
  have hholds : Script.submission.source.Holds [109] := .text "m"
  have hname : r.settings.sourceFilename = .text "main.yz" := rfl
  have hready : requireEnvironment Script.plane.recorded ⟨r, { world := ⟨{}, []⟩ }⟩ =
    (.ok (.text "env"), ⟨r, { world := ⟨{}, []⟩ }⟩) := rfl
  obtain ⟨first, hfirst, _, h, _⟩ := inject_delivers hname (by decide) hready Script.submission.source
  obtain rfl : first = [] := hfirst.symm
  have hnow : Seconds.truncate (Clock.wall (⟨{}, []⟩ : Recorded Script Double) : Double) = .ok 0 := by
    decide +kernel
  have hline : (if ([109] : Bytes).getLast? = some 10 then [109] else [109] ++ [10]) = ([109, 10] : Bytes) := by
    decide
  have hdelivered := h [109] 0 hholds hnow
  simp only [hline] at hdelivered
  obtain ⟨hwritten, -, hlength⟩ := hdelivered
  obtain ⟨archive, hcalls, hfiles, hlength⟩ := hwritten (hlength (by decide +kernel))
  rw [show inject Script.plane.recorded Script.submission.source ⟨r, { world := ⟨{}, []⟩ }⟩ = out from rfl] at hcalls
  clear_value out
  exact ⟨archive, hcalls, hfiles, hlength⟩

end Runner

end Playpen
