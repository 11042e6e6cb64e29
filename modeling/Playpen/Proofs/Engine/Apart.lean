import Playpen.Proofs.Engine.Ledger
import Playpen.Proofs.Engine.Timeouts
import Playpen.Proofs.Plane.Scripted
import Playpen.Proofs.Runner.Belongings

namespace Playpen

open Act (Does)
open PlaneCall (Confined created?)

variable {ω τ : Type}

def Operation.Spares (e : Engine τ) (b : SessionKey) : Operation ω τ → Prop
  | .execute sub => (e.key sub).sameKey b = false
  | .toolchainVersion | .validateToolchain => e.versionKey.sameKey b = false
  | .acquire key | .release key => key.sameKey b = false
  | .get _ | .outside _ => True
  | .shutdown => False

namespace Holdings

def Elsewhere (h : Holdings τ) (b : SessionKey) (id : EnvironmentId) : Prop :=
  ∃ k i r, (k, i) ∈ h.registry ∧ k.sameKey b = false ∧ h.runners[i]? = some r ∧ r.environment = some id

structure Passes (b : SessionKey) (h : Holdings τ) (added : List (PlaneCall τ)) (h' : Holdings τ) : Prop where
  lookUp : b.lookUp h'.registry = b.lookUp h.registry
  runner {i : Nat} : b.lookUp h.registry = some i → h'.runners[i]? = h.runners[i]?
  confined : Confined (h.Elsewhere b) added (h'.Elsewhere b)

variable {b key : SessionKey} {h h' h'' : Holdings τ} {added more : List (PlaneCall τ)}

theorem Passes.refl (b : SessionKey) (h : Holdings τ) : Passes b h [] h := ⟨rfl, fun _ => rfl, .refl _⟩

theorem Passes.trans (hp : Passes b h added h') (hp' : Passes b h' more h'') : Passes b h (added ++ more) h'' where
  lookUp := hp'.lookUp.trans hp.lookUp
  runner hi := (hp'.runner (hp.lookUp.trans hi)).trans (hp.runner hi)
  confined := hp.confined.trans hp'.confined

section

variable {plane : ControlPlane ω τ} {settings : Settings τ} {k : SessionKey} {i : Nat} {r r' : Runner τ}

theorem Sound.owns (hs : h.Sound plane settings) (hown : settings.ownsEnvironment = true) (hm : (k, i) ∈ h.registry)
    (hr : h.runners[i]? = some r) : r.owns = true := by
  obtain ⟨q, hq, _, hset, _⟩ := hs.runner hm
  cases hr.symm.trans hq
  rw [Runner.owns, hset, hown]

theorem Sound.number_ne (hs : h.Sound plane settings) (hm : (k, i) ∈ h.registry) (hk : k.sameKey b = false) {j : Nat}
    (hb : b.lookUp h.registry = some j) : i ≠ j := by
  rintro rfl
  obtain ⟨k', hm', hk'⟩ := Value.mem_of_lookUp hb
  have heq := List.inj_on_of_nodup_map hs.numbers hm hm' rfl
  cases heq
  rw [hk] at hk'
  cases hk'

theorem Passes.put (hs : h.Sound plane settings) (hm : (k, i) ∈ h.registry) (hk : k.sameKey b = false)
    (hr : h.runners[i]? = some r) (hminds : r.Minds added r') : Passes b h added (h.put i r') := by
  constructor
  case lookUp => rfl
  case runner => exact fun hj => List.getElem?_set_ne (hs.number_ne hm hk hj)
  case confined =>
    apply hminds.widen
    · exact fun id he => ⟨k, i, r, hm, hk, hr, he⟩
    · rintro id ⟨k', j, q, hm', hk', hq, he⟩
      by_cases hij : i = j
      · subst hij
        rw [getElem?_put hr] at hq
        cases hq
        exact .inl he
      · right
        exact ⟨k', j, q, hm', hk', (List.getElem?_set_ne hij).symm.trans hq, he⟩

theorem Acquires.passes {out : Except (Failure τ) Nat} (ha : h.Acquires settings key added h' out)
    (hs : h.Sound plane settings) (hown : settings.ownsEnvironment = true) (hk : key.sameKey b = false) :
    Passes b h added h' := by
  cases ha with
  | found | refused => exact .refl b h
  | unopened _ ho => exact ⟨rfl, fun _ => rfl, (ho.minds hown).widen nofun fun _ hid => .inr hid⟩
  | @opened _ r hl _ _ ho =>
    constructor
    case lookUp =>
      show b.lookUp (h.registry ++ [(key, h.runners.length)]) = _
      rw [Value.lookUp_append]
      simp [Value.lookUp, hk]
    case runner =>
      intro i hi
      obtain ⟨k, hm, _⟩ := Value.mem_of_lookUp hi
      obtain ⟨q, hq, _⟩ := hs.runner hm
      exact List.getElem?_append_left (List.getElem?_eq_some_iff.mp hq).1
    case confined =>
      apply (ho.minds hown).widen nofun
      rintro id ⟨k, i, q, hm, hk', hq, he⟩
      rcases List.mem_append.mp hm with hm | hm
      · obtain ⟨p, hp, _⟩ := hs.runner hm
        have hlt := (List.getElem?_eq_some_iff.mp hp).1
        right
        exact ⟨k, i, q, hm, hk', (List.getElem?_append_left hlt).symm.trans hq, he⟩
      · cases List.mem_singleton.mp hm
        have hlast : (h.runners ++ [r])[h.runners.length]? = some r := List.getElem?_concat_length
        cases hlast.symm.trans hq
        exact .inl ⟨r, rfl, he⟩

theorem Releases.passes {out : Except (Failure τ) Unit} (hr : h.Releases key added h' out)
    (hs : h.Sound plane settings) (hk : key.sameKey b = false) : Passes b h added h' := by
  cases hr with
  | absent => exact .refl b h
  | @released i r _ r' _ _ hl hr hc _ =>
    obtain ⟨k, hm, hsame⟩ := Value.mem_of_lookUp hl
    have hput := Passes.put hs hm (Value.other_of_sameKey hsame hk) hr hc.minds
    constructor
    case lookUp => exact Value.lookUp_filter_ne (Value.sameKey_comm.trans hk)
    case runner => exact hput.runner
    case confined =>
      apply hput.confined.widen (fun _ hid => hid)
      rintro id ⟨k', j, q, hm', hrest⟩
      exact .inl ⟨k', j, q, (List.mem_filter.mp hm').1, hrest⟩

theorem Acquires.entry {out : Except (Failure τ) Nat} (ha : h.Acquires settings key added h' out) (hi : out = .ok i)
    (hk : key.sameKey b = false) : ∃ k, (k, i) ∈ h'.registry ∧ k.sameKey b = false := by
  subst hi
  obtain ⟨k, hm, hsame⟩ := Value.mem_of_lookUp ha.lookUp
  exact ⟨k, hm, Value.other_of_sameKey hsame hk⟩

variable [Seconds τ]

theorem Proceeds.passes {orderly : Prop} {recycling : Bool} {source : Raw}
    {out : Except (Failure τ) ExecutionResult} (hp : h.Proceeds orderly recycling source key i added h' out)
    (hs : h.Sound plane settings) (hown : settings.ownsEnvironment = true) (hm : (k, i) ∈ h.registry)
    (hk : k.sameKey b = false) (hkey : key.sameKey b = false) : Passes b h added h' := by
  have tried {q q' : Runner τ} {calls : List (PlaneCall τ)} {reply : Except (Failure τ) RunOutcome}
      (hq : h.runners[i]? = some q) (ha : q.Attempts source calls q' reply) : Passes b h calls (h.put i q') :=
    .put hs hm hk hq (ha.minds (hs.owns hown hm hq))
  cases hp with
  | failed hr ha | unmeasured hr ha => exact tried hr ha
  | recycled hr ha _ _ _ hl =>
    obtain ⟨q, hq, hlegible, _⟩ := hs.runner hm
    cases hr.symm.trans hq
    have hs' := hs.put hr ha.keeps (ha.legible hlegible)
    exact (tried hr ha).trans (hl.passes hs' hkey)
  | sampled hr ha hsample | unsampled hr ha hsample =>
    obtain ⟨q, hq, hlegible, _⟩ := hs.runner hm
    cases hr.symm.trans hq
    have hs' := hs.put hr ha.keeps (ha.legible hlegible)
    have hsampled := Passes.put hs' hm hk (getElem?_put hr _) hsample.minds
    rw [put_put] at hsampled
    exact (tried hr ha).trans hsampled

theorem Consults.passes (hc : h.Consults settings key added h') (hp : plane.Legible settings)
    (hs : h.Sound plane settings) (hown : settings.ownsEnvironment = true) (hk : key.sameKey b = false) :
    Passes b h added h' := by
  cases hc with
  | refused ha => exact ha.passes hs hown hk
  | asked ha hr hask =>
    have hs' := ha.sound hp hs
    obtain ⟨k, hm, hother⟩ := ha.entry rfl hk
    exact (ha.passes hs hown hk).trans (.put hs' hm hother hr (hask.minds (hs'.owns hown hm hr)))

end

end Holdings

variable [Seconds τ] [Clock ω τ] {plane : ControlPlane ω τ} {settings : Settings τ} {e : Engine τ}
  {s : Site (Recorded ω τ) τ} {b : SessionKey}

theorem perform_passes (hp : plane.Legible settings) (hown : settings.ownsEnvironment = true)
    (hs : s.holdings.Sound plane settings) {op : Operation ω τ} (hspares : op.Spares e b) : ∃ added,
      Recording.calls (op.perform plane settings e s) = Recording.calls s ++ added ∧
        s.holdings.Passes b added (op.perform plane settings e s).holdings := by
  cases op with
  | execute sub =>
    obtain ⟨first, hfirst, ha, hrest⟩ := Engine.execute_cases hp hs e sub
    have hacquired := ha.passes hs hown hspares
    obtain ⟨hc, hh, _⟩ | ⟨i, rest, hi, hc, hproceeds⟩ := hrest
    · refine ⟨first, hc.trans hfirst, ?_⟩
      rw [← hh] at hacquired
      exact hacquired
    · obtain ⟨k, hm, hother⟩ := ha.entry hi hspares
      refine ⟨first ++ rest, ?_, ?_⟩
      · rw [← List.append_assoc]
        exact hc.trans (congrArg (· ++ rest) hfirst)
      · exact hacquired.trans (hproceeds.passes (ha.sound hp hs) hown hm hother hspares)
  | toolchainVersion =>
    obtain ⟨added, hc, ha⟩ := Engine.asked_does (e := e) hp hs fun _ hl => Runner.toolchainVersion_does hl none
    exact ⟨added, hc, ha.passes hp hs hown hspares⟩
  | validateToolchain =>
    obtain ⟨added, hc, ha⟩ := Engine.asked_does (e := e) hp hs fun _ hl => Runner.validateToolchain_does hl
    exact ⟨added, hc, ha.passes hp hs hown hspares⟩
  | acquire key =>
    obtain ⟨added, hc, ha⟩ := Engine.acquire_does (s := s) hp key
    exact ⟨added, hc, ha.passes hs hown hspares⟩
  | release key =>
    obtain ⟨added, hc, hr⟩ := Pool.release_does hs key
    exact ⟨added, hc, hr.passes hs hspares⟩
  | shutdown => exact hspares.elim
  | get key => exact ⟨[], (List.append_nil _).symm, .refl b _⟩
  | outside change => exact ⟨[], (List.append_nil _).symm, .refl b _⟩

theorem history_passes (hp : plane.Legible settings) (hown : settings.ownsEnvironment = true) (e : Engine τ)
    (env : Env ω τ) (ops : List (Operation ω τ)) {more : List (Operation ω τ)}
    (hspares : ∀ op ∈ more, op.Spares e b) : ∃ added,
      (history plane settings e env (ops ++ more)).env.world.calls =
        (history plane settings e env ops).env.world.calls ++ added ∧
      (history plane settings e env ops).holdings.Passes b added
        (history plane settings e env (ops ++ more)).holdings := by
  induction more using List.reverseRecOn with
  | nil =>
    rw [List.append_nil]
    exact ⟨[], (List.append_nil _).symm, .refl b _⟩
  | append_singleton more op ih =>
    obtain ⟨hmore, hop⟩ := List.forall_mem_append.mp hspares
    obtain ⟨added, hc, hpasses⟩ := ih hmore
    have hlast : history plane settings e env (ops ++ (more ++ [op])) =
        op.perform plane settings e (history plane settings e env (ops ++ more)) := by
      rw [← List.append_assoc]
      exact List.foldl_append
    obtain ⟨rest, hrest, hstep⟩ := perform_passes (e := e) hp hown (history_sound (e := e) hp env (ops ++ more))
      (hop op List.mem_cons_self)
    rw [hlast]
    refine ⟨added ++ rest, ?_, hpasses.trans hstep⟩
    rw [← List.append_assoc, ← hc]
    exact hrest

theorem history_elsewhere (hp : plane.Legible settings) (hown : settings.ownsEnvironment = true) (e : Engine τ)
    (env : Env ω τ) (ops : List (Operation ω τ)) {i : Nat} {r : Runner τ} {id : EnvironmentId}
    (hfresh : ((history plane settings e env ops).env.world.calls.filterMap created?).Nodup)
    (hb : b.lookUp (history plane settings e env ops).registry = some i)
    (hr : (history plane settings e env ops).runners[i]? = some r) (hid : r.environment = some id) :
    id ∈ (history plane settings e env ops).env.world.calls.filterMap created? ∧
      ¬ (history plane settings e env ops).holdings.Elsewhere b id := by
  obtain ⟨_, hheld, _, hmade⟩ := parts_of_count (history_ledger hp hown e env ops).environments hfresh
  have hmem : id ∈ r.environment.toList := by rw [hid]; exact List.mem_singleton_self id
  constructor
  · have hin : id ∈ (history plane settings e env ops).holdings.runners.flatMap (·.environment.toList) :=
      List.mem_flatMap.mpr ⟨r, List.mem_of_getElem? hr, hmem⟩
    exact ((hmade id).mpr hin).1
  · rintro ⟨k, j, q, hm, hk, hq, he⟩
    have hother : id ∈ q.environment.toList := by rw [he]; exact List.mem_singleton_self id
    have hij := index_unique_of_nodup_flatMap hheld hq hr hother hmem
    exact (history_sound (e := e) hp env ops).number_ne hm hk hb hij

/-- Whatever is done under other keys, a key's runner stays as it is, or stays away; the calls that are made
name environments of other keys and such as were made meanwhile, so not the one of the key. -/
theorem keys_apart (hp : plane.Legible settings) (hown : settings.ownsEnvironment = true) (e : Engine τ)
    (env : Env ω τ) (ops more : List (Operation ω τ)) (b : SessionKey) (hspares : ∀ op ∈ more, op.Spares e b) :
    let s := history plane settings e env ops
    let s' := history plane settings e env (ops ++ more)
    b.lookUp s'.registry = b.lookUp s.registry ∧
    (∀ i, b.lookUp s.registry = some i → s'.runners[i]? = s.runners[i]?) ∧
    ∃ added, s'.env.world.calls = s.env.world.calls ++ added ∧
      (∀ c ∈ added, ∀ id, c.environment? = some id →
        id ∈ added.filterMap created? ∨ s.holdings.Elsewhere b id) ∧
      ((s'.env.world.calls.filterMap created?).Nodup →
        ∀ i r id, b.lookUp s.registry = some i → s.runners[i]? = some r → r.environment = some id →
          ∀ c ∈ added, c.environment? ≠ some id) := by
  intro s s'
  obtain ⟨added, hc, hpasses⟩ := history_passes hp hown e env ops hspares
  refine ⟨hpasses.lookUp, fun i hi => hpasses.runner hi, added, hc, hpasses.confined.named, ?_⟩
  intro hfresh i r id hi hr hid c hmem hname
  rw [hc, List.filterMap_append] at hfresh
  obtain ⟨hbefore, _, hapart⟩ := List.nodup_append.mp hfresh
  obtain ⟨hmade, helse⟩ := history_elsewhere hp hown e env ops hbefore hi hr hid
  rcases hpasses.confined.named c hmem id hname with hlater | hother
  · exact hapart id hmade id hlater rfl
  · exact helse hother

namespace Script

def first : List (Operation Script Double) := [.acquire (.text "b")]

def others : List (Operation Script Double) :=
  [.execute submission, .toolchainVersion, .acquire (.text "a"), .release (.text "a")]

end Script

theorem keys_apart_stalled :
    let e := Script.engine true
    let s := Script.site e Script.stalled Script.first
    let s' := Script.site e Script.stalled (Script.first ++ Script.others)
    (∀ op ∈ Script.others, op.Spares e (.text "b")) ∧ Value.lookUp (.text "b") s'.registry = some 0 ∧
      s'.runners[0]? = s.runners[0]? ∧
      ∃ added, s'.env.world.calls = s.env.world.calls ++ added ∧
        ∀ c ∈ added, c.environment? ≠ some (Script.environmentId 0) := by
  have hspares : ∀ op ∈ Script.others, op.Spares (Script.engine true) (.text "b") := by
    intro op hop
    simp only [Script.others, List.mem_cons, List.not_mem_nil, or_false] at hop
    rcases hop with rfl | rfl | rfl | rfl <;> simp only [Operation.Spares] <;> decide +kernel
  have hregistered : Value.lookUp (.text "b") (Script.site (Script.engine true) Script.stalled Script.first).registry =
      some 0 := by decide +kernel
  have hheld : (Script.site (Script.engine true) Script.stalled Script.first).runners[0]?.bind (·.environment) =
      some (Script.environmentId 0) := by decide +kernel
  have hfresh : ((Script.site (Script.engine true) Script.stalled
      (Script.first ++ Script.others)).env.world.calls.filterMap
      created?).Nodup := by decide +kernel
  unfold Script.site at *
  obtain ⟨r, hr, hid⟩ := Option.bind_eq_some_iff.mp hheld
  obtain ⟨hlook, hrunner, added, hc, _, hapart⟩ := keys_apart Script.legible rfl (Script.engine true)
    { world := Script.stalled } Script.first Script.others (.text "b") hspares
  exact ⟨hspares, hlook.trans hregistered, hrunner 0 hregistered, added, hc,
    hapart hfresh 0 r _ hregistered hr hid⟩

end Playpen
