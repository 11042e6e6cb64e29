import Playpen.Proofs.Plane.Recorded
/-!
What the operations of a runner do: the calls they make, in order, how they end and what becomes of the
runner.
-/
namespace Playpen

open Utf8 (Bytes)

variable {ω τ : Type}

/-- What runners with these settings note can be shown: the image, and the names of environments. -/
structure ControlPlane.Legible (plane : ControlPlane ω τ) (settings : Settings τ) : Prop where
  image : ∃ t, settings.image.display = .ok t
  created {l : Link} {spec : EnvironmentSpec} {env : Env ω τ} {id : EnvironmentId} :
    (plane.create l spec env).1 = .ok id → ∃ t, shortId id = .ok t
  attached : settings.ownsEnvironment = false → (∃ t, shortId settings.containerName = .ok t) ∧
    ∃ t, settings.containerName.display = .ok t

structure Runner.Legible (plane : ControlPlane ω τ) (r : Runner τ) : Prop where
  key : ∃ t, r.key.display = .ok t
  plane : plane.Legible r.settings
  environment {id : EnvironmentId} : r.environment = some id → ∃ t, shortId id = .ok t

namespace Runner

inductive Creates (l : Link) : List (PlaneCall τ) → Except (Failure τ) EnvironmentId → Prop
  | unnamed (e) : Creates l [] (.error e)
  | refused (spec drawn e) : Creates l [.create l spec drawn (.error e)] (.error e)
  | created (spec drawn) {id} (hid : ∃ t, shortId id = .ok t) :
      Creates l [.create l spec drawn (.ok id)] (.ok id)

inductive Starts (r : Runner τ) : List (PlaneCall τ) → Runner τ → Except (Failure τ) Unit → Prop
  | up (h : r.environment.isSome = true) : Starts r [] r (.ok ())
  | created {added id} (h : r.environment = none) (ho : r.owns = true)
      (hc : Creates r.link added (.ok id)) (hn : ∃ parts, r.nameParts = .ok parts) :
      Starts r added { r with environment := some id } (.ok ())
  | failed {added e} (h : r.environment = none) (ho : r.owns = true)
      (hc : Creates r.link added (.error e)) (hn : added ≠ [] ↔ ∃ parts, r.nameParts = .ok parts) :
      Starts r added r (.error e)
  | attached (h : r.environment = none) (ho : r.owns = false) :
      Starts r [.isRunning r.link r.settings.containerName (.ok true)]
        { r with environment := some r.settings.containerName } (.ok ())
  | absent {reply e} (h : r.environment = none) (ho : r.owns = false) (hr : reply = .error e ∨
      reply = .ok false ∧ ∃ message, e = .controlPlane message (some r.settings.containerName)) :
      Starts r [.isRunning r.link r.settings.containerName reply] r (.error e)

inductive Requires (r : Runner τ) :
    List (PlaneCall τ) → Runner τ → Except (Failure τ) EnvironmentId → Prop
  | closed (h : r.closed = true) (e) : Requires r [] r (.error e)
  | up {added r' id} (h : r.closed = false) (hs : Starts r added r' (.ok ()))
      (hid : r'.environment = some id) : Requires r added r' (.ok id)
  | down {added r' e} (h : r.closed = false) (hs : Starts r added r' (.error e)) :
      Requires r added r' (.error e)

def Packs (settings : Settings τ) [Seconds τ] (source : Raw) (archive : Bytes) : Prop :=
  ∃ (data : Bytes) (wall : τ), (Staging.sourceBytes source : Except (Failure τ) Bytes) = .ok data ∧
    Staging.archive settings.sourceFilename (Staging.withNewline data) wall = .ok archive

inductive Injects [Seconds τ] (source : Raw) (r : Runner τ) :
    List (PlaneCall τ) → Runner τ → Except (Failure τ) Unit → Prop
  | down {added r' e} (hq : Requires r added r' (.error e)) : Injects source r added r' (.error e)
  | unpacked {added r' id} (hq : Requires r added r' (.ok id)) (e) :
      Injects source r added r' (.error e)
  | delivered {added r' id archive reply} (hq : Requires r added r' (.ok id))
      (ha : Packs r.settings source archive) :
      Injects source r (added ++ [.inject r.link id r.settings.workingDir archive reply]) r' reply

inductive Verifies [Seconds τ] (r : Runner τ) :
    List (PlaneCall τ) → Runner τ → Except (Failure τ) Unit → Prop
  | trusted (h : r.suspect = false ∨ r.environment = none) : Verifies r [] r (.ok ())
  | alive {id} (hs : r.suspect = true) (he : r.environment = some id) :
      Verifies r [.isRunning r.link id (.ok true)] { r with suspect := false } (.ok ())
  | unreachable {id} (hs : r.suspect = true) (he : r.environment = some id) (e) :
      Verifies r [.isRunning r.link id (.error e)] r (.error e)
  | gone {id e} (hs : r.suspect = true) (he : r.environment = some id) (ho : r.owns = false)
      (hd : (∃ t, id.display = .ok t) → ∃ message, e = .controlPlane message (some id)) :
      Verifies r [.isRunning r.link id (.ok false)] r (.error e)
  | stuck {id e} (hs : r.suspect = true) (he : r.environment = some id) (ho : r.owns = true)
      (hk : e.isA .controlPlane = false) :
      Verifies r [.isRunning r.link id (.ok false), .remove r.link id (.error e)]
        { r with environment := none } (.error e)
  | unreplaced {id reply added e} (hs : r.suspect = true) (he : r.environment = some id)
      (ho : r.owns = true) (hr : ∀ f, reply = .error f → f.isA .controlPlane = true)
      (hc : Creates r.link added (.error e)) :
      Verifies r (.isRunning r.link id (.ok false) :: .remove r.link id reply :: added)
        { r with environment := none } (.error e)
  | replaced {id reply added fresh} (hs : r.suspect = true) (he : r.environment = some id)
      (ho : r.owns = true) (hr : ∀ f, reply = .error f → f.isA .controlPlane = true)
      (hc : Creates r.link added (.ok fresh)) :
      Verifies r (.isRunning r.link id (.ok false) :: .remove r.link id reply :: added)
        { r with environment := some fresh, suspect := false } (.ok ())

inductive Execs [Seconds τ] (r : Runner τ) (id : EnvironmentId) (command : Command τ) :
    List (PlaneCall τ) → Runner τ → Except (Failure τ) Capture → Prop
  | ran (capture) : Execs r id command [.exec r.link id command (.ok capture)] r (.ok capture)
  | broke {e} (ht : e.isA .timeout = false) :
      Execs r id command [.exec r.link id command (.error e)] r (.error e)
  | stopped {e reply} (ht : e.isA .timeout = true)
      (hr : ∀ f, reply = .error f → f.isA .playground = true) :
      Execs r id command
        [.exec r.link id command (.error e), .terminate r.link id r.settings.user reply]
        { r with suspect := true } (.error e)
  | runaway {e f} (ht : e.isA .timeout = true) (hf : f.isA .playground = false) :
      Execs r id command
        [.exec r.link id command (.error e), .terminate r.link id r.settings.user (.error f)]
        { r with suspect := true } (.error f)

inductive Readies [Seconds τ] (r : Runner τ) :
    List (PlaneCall τ) → Runner τ → Except (Failure τ) EnvironmentId → Prop
  | unverified {added r' e} (hv : Verifies r added r' (.error e)) : Readies r added r' (.error e)
  | verified {added r₁ more r' reply} (hv : Verifies r added r₁ (.ok ()))
      (hq : Requires r₁ more r' reply) : Readies r (added ++ more) r' reply

inductive Runs [Seconds τ] (r : Runner τ) :
    List (PlaneCall τ) → Runner τ → Except (Failure τ) RunOutcome → Prop
  | down {added r' e} (hr : Readies r added r' (.error e)) : Runs r added r' (.error e)
  | unready {added r' id} (hr : Readies r added r' (.ok id)) (e) : Runs r added r' (.error e)
  | failed {added r₁ id command more r' e} (hr : Readies r added r₁ (.ok id))
      (hx : Execs r₁ id command more r' (.error e)) : Runs r (added ++ more) r' (.error e)
  | finished {added r₁ id command more r' capture} (hr : Readies r added r₁ (.ok id))
      (hx : Execs r₁ id command more r' (.ok capture)) (out) : Runs r (added ++ more) r' out

inductive Attempts [Seconds τ] (source : Raw) (r : Runner τ) :
    List (PlaneCall τ) → Runner τ → Except (Failure τ) RunOutcome → Prop
  | undelivered {added r' e} (hi : Injects source r added r' (.error e)) :
      Attempts source r added r' (.error e)
  | ran {added r₁ more r' out} (hi : Injects source r added r₁ (.ok ())) (hr : Runs r₁ more r' out) :
      Attempts source r (added ++ more) r' out

inductive Asks [Seconds τ] (r : Runner τ) {α : Type} :
    List (PlaneCall τ) → Runner τ → Except (Failure τ) α → Prop
  | down {added r' e} (hr : Readies r added r' (.error e)) : Asks r added r' (.error e)
  | unready {added r' id} (hr : Readies r added r' (.ok id)) (e) : Asks r added r' (.error e)
  | asked {added r' id command reply} (hr : Readies r added r' (.ok id)) (out) :
      Asks r (added ++ [.exec r.link id command reply]) r' out

inductive Samples [Seconds τ] (r : Runner τ) : List (PlaneCall τ) → Except (Failure τ) Int → Prop
  | down (h : r.environment = none) : Samples r [] (.ok 0)
  | sampled {id v n} (he : r.environment = some id) (hv : v.toInt = .ok n) :
      Samples r [.memoryUsage r.link id (.ok v)] (.ok (max 0 n))
  | unreadable {id v m} (he : r.environment = some id) (hv : v.toInt = .error m) :
      Samples r [.memoryUsage r.link id (.ok v)] (.error m.failure)
  | unknown {id e} (he : r.environment = some id) (hp : e.isA .playground = true) :
      Samples r [.memoryUsage r.link id (.error e)] (.ok 0)
  | failed {id e} (he : r.environment = some id) (hp : e.isA .playground = false) :
      Samples r [.memoryUsage r.link id (.error e)] (.error e)

inductive Closes (r : Runner τ) : List (PlaneCall τ) → Runner τ → Except (Failure τ) Unit → Prop
  | already (h : r.closed = true) : Closes r [] r (.ok ())
  | bare {reply} (h : r.closed = false) (hn : r.owns = false ∨ r.environment = none) :
      Closes r [.close r.link reply] { r with closed := true } reply
  | removed {id removal closing} (h : r.closed = false) (ho : r.owns = true)
      (he : r.environment = some id) :
      Closes r [.remove r.link id removal, .close r.link closing]
        { r with closed := true, environment := none } (closing.bind fun _ => removal)

inductive Opens (settings : Settings τ) (key : SessionKey) :
    List (PlaneCall τ) → Except (Failure τ) (Runner τ) → Prop
  | unconnected (e) : Opens settings key [.connect settings (.error e)] (.error e)
  | opened {link added r} (hs : Starts { key, settings, link } added r (.ok ())) :
      Opens settings key (.connect settings (.ok link) :: added) (.ok r)
  | failed {link added r e closing} (hs : Starts { key, settings, link } added r (.error e)) :
      Opens settings key (.connect settings (.ok link) :: (added ++ [.close link closing]))
        (closing.bind fun _ => .error e)

inductive Acts [Seconds τ] (r : Runner τ) (added : List (PlaneCall τ)) (r' : Runner τ) : Prop
  | inject {source out} (h : Injects source r added r' out)
  | run {out} (h : Runs r added r' out)
  | ask {α : Type} {out : Except (Failure τ) α} (h : Asks r added r' out)
  | sample {out} (h : Samples r added out) (hr : r' = r)

structure Keeps (r r' : Runner τ) : Prop where
  key : r'.key = r.key
  settings : r'.settings = r.settings
  link : r'.link = r.link
  closed : r'.closed = r.closed

theorem Keeps.refl (r : Runner τ) : Keeps r r := ⟨rfl, rfl, rfl, rfl⟩

theorem Keeps.trans {a b c : Runner τ} (h : Keeps a b) (h' : Keeps b c) : Keeps a c :=
  ⟨h'.key.trans h.key, h'.settings.trans h.settings, h'.link.trans h.link, h'.closed.trans h.closed⟩

theorem Keeps.owns {r r' : Runner τ} (h : Keeps r r') : r'.owns = r.owns :=
  congrArg Settings.ownsEnvironment h.settings

theorem Legible.of_keeps {plane : ControlPlane ω τ} {r r' : Runner τ} (h : r.Legible plane)
    (hk : Keeps r r') (he : ∀ id, r'.environment = some id → ∃ t, shortId id = .ok t) :
    r'.Legible plane where
  key := hk.key ▸ h.key
  plane := hk.settings ▸ h.plane
  environment := he _

section

variable {r r' : Runner τ} {added : List (PlaneCall τ)}

theorem Creates.label {l : Link} {id : EnvironmentId} (h : Creates l added (.ok id)) :
    ∃ t, shortId id = .ok t := by
  cases h with
  | created _ _ hid => exact hid

theorem Starts.keeps {out : Except (Failure τ) Unit} (h : Starts r added r' out) : Keeps r r' := by
  cases h <;> exact ⟨rfl, rfl, rfl, rfl⟩

theorem Starts.isSome (h : Starts r added r' (.ok ())) : r'.environment.isSome = true := by
  cases h with
  | up h => exact h
  | created | attached => rfl

theorem Starts.legible {plane : ControlPlane ω τ} {out : Except (Failure τ) Unit}
    (h : Starts r added r' out) (hl : r.Legible plane) : r'.Legible plane := by
  refine hl.of_keeps h.keeps ?_
  cases h with
  | up | failed | absent => exact fun _ => hl.environment
  | created _ _ hc => rintro _ ⟨⟩; exact hc.label
  | attached _ ho => rintro _ ⟨⟩; exact (hl.plane.attached ho).1

theorem Requires.keeps {out : Except (Failure τ) EnvironmentId} (h : Requires r added r' out) :
    Keeps r r' := by
  cases h with
  | closed => exact .refl r
  | up _ hs | down _ hs => exact hs.keeps

theorem Requires.legible {plane : ControlPlane ω τ} {out : Except (Failure τ) EnvironmentId}
    (h : Requires r added r' out) (hl : r.Legible plane) : r'.Legible plane := by
  cases h with
  | closed => exact hl
  | up _ hs | down _ hs => exact hs.legible hl

theorem Requires.environment {id : EnvironmentId} (h : Requires r added r' (.ok id)) :
    r'.environment = some id := by
  cases h with
  | up _ _ hid => exact hid

theorem Starts.suspect {out : Except (Failure τ) Unit} (h : Starts r added r' out) :
    r'.suspect = r.suspect := by
  cases h <;> rfl

theorem Requires.suspect {out : Except (Failure τ) EnvironmentId} (h : Requires r added r' out) :
    r'.suspect = r.suspect := by
  cases h with
  | closed => rfl
  | up _ hs | down _ hs => exact hs.suspect

theorem Requires.of_some {id held : EnvironmentId} (h : Requires r added r' (.ok id))
    (he : r.environment = some held) : added = [] ∧ id = held := by
  cases h with
  | up _ hs hid =>
    cases hs with
    | up => exact ⟨rfl, Option.some.inj (hid.symm.trans he)⟩
    | created hn | attached hn => simp [he] at hn

variable [Seconds τ]

theorem Injects.keeps {source : Raw} {out : Except (Failure τ) Unit}
    (h : Injects source r added r' out) : Keeps r r' := by
  cases h with
  | down hq | unpacked hq | delivered hq => exact hq.keeps

theorem Injects.legible {plane : ControlPlane ω τ} {source : Raw} {out : Except (Failure τ) Unit}
    (h : Injects source r added r' out) (hl : r.Legible plane) : r'.Legible plane := by
  cases h with
  | down hq | unpacked hq | delivered hq => exact hq.legible hl

theorem Verifies.keeps {out : Except (Failure τ) Unit} (h : Verifies r added r' out) :
    Keeps r r' := by
  cases h <;> exact ⟨rfl, rfl, rfl, rfl⟩

theorem Verifies.legible {plane : ControlPlane ω τ} {out : Except (Failure τ) Unit}
    (h : Verifies r added r' out) (hl : r.Legible plane) : r'.Legible plane := by
  refine hl.of_keeps h.keeps ?_
  cases h with
  | trusted | alive | unreachable | gone => exact fun _ => hl.environment
  | stuck | unreplaced => rintro _ ⟨⟩
  | replaced _ _ _ _ hc => rintro _ ⟨⟩; exact hc.label

theorem Readies.keeps {out : Except (Failure τ) EnvironmentId} (h : Readies r added r' out) :
    Keeps r r' := by
  cases h with
  | unverified hv => exact hv.keeps
  | verified hv hq => exact hv.keeps.trans hq.keeps

theorem Readies.legible {plane : ControlPlane ω τ} {out : Except (Failure τ) EnvironmentId}
    (h : Readies r added r' out) (hl : r.Legible plane) : r'.Legible plane := by
  cases h with
  | unverified hv => exact hv.legible hl
  | verified hv hq => exact hq.legible (hv.legible hl)

theorem Readies.environment {id : EnvironmentId} (h : Readies r added r' (.ok id)) :
    r'.environment = some id := by
  cases h with
  | verified _ hq => exact hq.environment

theorem Execs.keeps {id : EnvironmentId} {command : Command τ} {out : Except (Failure τ) Capture}
    (h : Execs r id command added r' out) : Keeps r r' := by
  cases h <;> exact ⟨rfl, rfl, rfl, rfl⟩

theorem Execs.environment {id : EnvironmentId} {command : Command τ}
    {out : Except (Failure τ) Capture} (h : Execs r id command added r' out) :
    r'.environment = r.environment := by
  cases h <;> rfl

theorem Runs.keeps {out : Except (Failure τ) RunOutcome} (h : Runs r added r' out) :
    Keeps r r' := by
  cases h with
  | down hr | unready hr => exact hr.keeps
  | failed hr hx | finished hr hx => exact hr.keeps.trans hx.keeps

theorem Runs.legible {plane : ControlPlane ω τ} {out : Except (Failure τ) RunOutcome}
    (h : Runs r added r' out) (hl : r.Legible plane) : r'.Legible plane := by
  cases h with
  | down hr | unready hr => exact hr.legible hl
  | failed hr hx | finished hr hx =>
    refine (hr.legible hl).of_keeps hx.keeps fun id hid => ?_
    exact (hr.legible hl).environment (hx.environment ▸ hid)

theorem Attempts.keeps {source : Raw} {r r' : Runner τ}
    {added : List (PlaneCall τ)} {out : Except (Failure τ) RunOutcome}
    (h : Attempts source r added r' out) : Keeps r r' := by
  cases h with
  | undelivered hi => exact hi.keeps
  | ran hi hr => exact hi.keeps.trans hr.keeps

theorem Attempts.legible {plane : ControlPlane ω τ} {source : Raw}
    {r r' : Runner τ} {added : List (PlaneCall τ)} {out : Except (Failure τ) RunOutcome}
    (h : Attempts source r added r' out) (hl : r.Legible plane) : r'.Legible plane := by
  cases h with
  | undelivered hi => exact hi.legible hl
  | ran hi hr => exact hr.legible (hi.legible hl)

theorem Asks.keeps {α : Type} {out : Except (Failure τ) α} (h : Asks r added r' out) :
    Keeps r r' := by
  cases h with
  | down hr | unready hr | asked hr => exact hr.keeps

theorem Asks.legible {α : Type} {plane : ControlPlane ω τ} {out : Except (Failure τ) α}
    (h : Asks r added r' out) (hl : r.Legible plane) : r'.Legible plane := by
  cases h with
  | down hr | unready hr | asked hr => exact hr.legible hl

end

theorem Acts.keeps [Seconds τ] {r r' : Runner τ} {added : List (PlaneCall τ)}
    (h : Acts r added r') : Keeps r r' := by
  cases h with
  | inject h => exact h.keeps
  | run h => exact h.keeps
  | ask h => exact h.keeps
  | sample _ hr => exact hr ▸ .refl r

theorem Acts.legible [Seconds τ] {plane : ControlPlane ω τ} {r r' : Runner τ}
    {added : List (PlaneCall τ)} (h : Acts r added r') (hl : r.Legible plane) :
    r'.Legible plane := by
  cases h with
  | inject h => exact h.legible hl
  | run h => exact h.legible hl
  | ask h => exact h.legible hl
  | sample _ hr => exact hr ▸ hl

theorem Opens.starts {settings : Settings τ} {key : SessionKey} {added : List (PlaneCall τ)}
    {r : Runner τ} (h : Opens settings key added (.ok r)) :
    ∃ link more, added = .connect settings (.ok link) :: more ∧
      Starts { key, settings, link } more r (.ok ()) := by
  generalize hout : Except.ok r = out at h
  cases h with
  | unconnected => cases hout
  | opened hs => cases hout; exact ⟨_, _, rfl, hs⟩
  | @failed _ _ _ _ closing => cases closing <;> cases hout

end Runner

end Playpen
