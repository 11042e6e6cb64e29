import Playpen.Proofs.Config.Overrides

namespace Playpen

theorem roundDiv_pos {num den : Nat} (hd : 0 < den) (h : den ≤ num) : 0 < roundDiv num den := by
  have hq : 0 < num / den := Nat.div_pos h hd
  unfold roundDiv
  dsimp only
  split
  · exact hq
  · split <;> omega

namespace Double

inductive IsPositive : Double → Prop
  | finite {f : Finite} (h : 0 < f.signedQuanta) : IsPositive (.finite f)
  | infinite : IsPositive (.infinite false)

theorem unit_pos : 0 < unit := by decide +kernel

theorem signedQuanta_zero (h : Normal 0 0) : Finite.signedQuanta ⟨false, 0, 0, h⟩ = 0 := by
  simp [Finite.signedQuanta, Finite.quanta]

theorem le_zero_eq_false {x : Double} : x.le (zero false) = false ↔ x = .nan ∨ x.IsPositive := by
  cases x with
  | nan => simp [le]
  | infinite negative =>
    cases negative with
    | false => exact ⟨fun _ => .inr .infinite, fun _ => rfl⟩
    | true => exact ⟨nofun, nofun⟩
  | finite f =>
    simp only [zero, le, signedQuanta_zero, decide_eq_false_iff_not, Int.not_le, reduceCtorEq, false_or]
    exact ⟨.finite, fun h => by cases h with | finite h => exact h⟩

theorem two_pow_scaleOf_le {quanta : Nat} (h : quanta ≠ 0) : Nat.pow 2 (scaleOf quanta) ≤ quanta :=
  calc 2 ^ scaleOf quanta
    _ ≤ 2 ^ quanta.log2 := Nat.pow_le_pow_right (by decide) (by unfold scaleOf; omega)
    _ ≤ quanta := Nat.log2_self_le h

theorem ofQuotient_positive {num den : Nat} (hd : 0 < den) (h : den ≤ num) :
    (ofQuotient false num den).IsPositive := by
  have hquanta : num / den ≠ 0 := Nat.ne_of_gt (Nat.div_pos h hd)
  have hscaled : den * Nat.pow 2 (scaleOf (num / den)) ≤ num :=
    Nat.le_trans (Nat.mul_le_mul_left den (two_pow_scaleOf_le hquanta)) (Nat.mul_div_le num den)
  have hrounded := roundDiv_pos (Nat.mul_pos hd (Nat.pow_pos (by decide))) hscaled
  have hpositive (significand scale : Nat) (hn : Normal significand scale) (hs : 0 < significand) :
      IsPositive (.finite ⟨false, significand, scale, hn⟩) := by
    apply IsPositive.finite
    simp only [Finite.signedQuanta, Finite.quanta, Bool.false_eq_true, ↓reduceIte]
    exact Int.natCast_pos.mpr (Nat.mul_pos hs (Nat.pow_pos (by decide)))
  unfold ofQuotient
  dsimp only
  split
  · exact hpositive _ _ _ hrounded
  · split
    · exact hpositive _ _ _ (by decide)
    · exact .infinite

theorem ofInt_positive {i : Int} (h : 1 ≤ i) : (ofInt i).IsPositive := by
  have hsign : decide (i < 0) = false := by simp; omega
  have hmany : 0 < i.natAbs * unit := Nat.mul_pos (by omega) unit_pos
  unfold ofInt
  rw [hsign]
  exact ofQuotient_positive Nat.one_pos hmany

end Double

namespace Number

def whole : Number → Except Misuse Int
  | int i => .ok i
  | float x => Value.wholePart x

def double : Number → Except Misuse Double
  | int i => Value.doubleOfInt i
  | float x => .ok x

inductive Passes : Number → Prop
  | int {i} (h : 1 ≤ i) : Passes (.int i)
  | float {x} (h : x.IsPositive) : Passes (.float x)
  | nan : Passes (.float .nan)

inductive IsCount : Number → Prop
  | int {i} (h : 1 ≤ i) : IsCount (.int i)
  | float {f} (h : (Double.unit : Int) ≤ f.signedQuanta) : IsCount (.float (.finite f))

inductive IsFraction : Number → Prop
  | float {f} (h : 0 < f.signedQuanta) (hf : f.signedQuanta < (Double.unit : Int)) :
      IsFraction (.float (.finite f))

inductive IsSpan : Number → Prop
  | int {i} (h : 1 ≤ i) (hr : ∀ negative, Double.ofInt i ≠ .infinite negative) : IsSpan (.int i)
  | float {x} (h : x.IsPositive) : IsSpan (.float x)

variable {n : Number}

theorem whole_finite {f : Double.Finite} (h : 0 < f.signedQuanta) :
    whole (.float (.finite f)) = .ok (f.signedQuanta / Double.unit) :=
  congrArg Except.ok (Int.tdiv_eq_ediv_of_nonneg (Int.le_of_lt h))

theorem unit_pos : (0 : Int) < Double.unit := Int.natCast_pos.mpr Double.unit_pos

theorem IsCount.whole (h : n.IsCount) : ∃ i, n.whole = .ok i ∧ 1 ≤ i := by
  cases h with
  | int h => exact ⟨_, rfl, h⟩
  | float h =>
    refine ⟨_, whole_finite (Int.lt_of_lt_of_le unit_pos h), ?_⟩
    rw [Int.le_ediv_iff_mul_le unit_pos, Int.one_mul]
    exact h

theorem IsFraction.whole (h : n.IsFraction) : n.whole = .ok 0 := by
  cases h with
  | float h hf => rw [whole_finite h, Int.ediv_eq_zero_of_lt (Int.le_of_lt h) hf]

theorem Passes.isCount_or_isFraction (h : n.Passes) {i : Int} (hi : n.whole = .ok i) :
    n.IsCount ∧ 1 ≤ i ∨ n.IsFraction ∧ i = 0 := by
  have hcount (hn : n.IsCount) : n.IsCount ∧ 1 ≤ i := by
    obtain ⟨j, hj, h⟩ := hn.whole
    cases hj.symm.trans hi
    exact ⟨hn, h⟩
  cases h with
  | int h => exact .inl (hcount (.int h))
  | nan => cases hi
  | float h =>
    cases h with
    | infinite => cases hi
    | @finite f h =>
      rcases Int.lt_or_le f.signedQuanta Double.unit with hlt | hle
      · have hf : IsFraction (.float (.finite f)) := .float h hlt
        exact .inr ⟨hf, Except.ok.inj (hi.symm.trans hf.whole)⟩
      · exact .inl (hcount (.float hle))

theorem double_int {i : Int} (h : 1 ≤ i) :
    (int i).IsSpan ∧ (∃ x, double (.int i) = .ok x ∧ x.IsPositive) ∨
      (∃ negative, Double.ofInt i = .infinite negative) ∧ double (.int i) = .error .tooLarge := by
  have hpositive := Double.ofInt_positive h
  rw [double, Config.doubleOfInt_eq]
  dsimp only
  rcases hx : Double.ofInt i with _ | negative | f <;> rw [hx] at hpositive
  · cases hpositive
  · exact .inr ⟨⟨negative, rfl⟩, rfl⟩
  · exact .inl ⟨.int h (by simp [hx]), _, rfl, hpositive⟩

theorem IsSpan.double (h : n.IsSpan) : ∃ x, n.double = .ok x ∧ x.IsPositive := by
  cases h with
  | float h => exact ⟨_, rfl, h⟩
  | int h hr =>
    obtain ⟨_, hx⟩ | ⟨⟨negative, hinf⟩, _⟩ := double_int h
    · exact hx
    · exact absurd hinf (hr negative)

theorem Passes.isSpan_or_nan (h : n.Passes) {x : Double} (hx : n.double = .ok x) :
    n.IsSpan ∧ x.IsPositive ∨ n = .float .nan ∧ x = .nan := by
  cases h with
  | float h =>
    cases hx
    exact .inl ⟨.float h, h⟩
  | nan =>
    cases hx
    exact .inr ⟨rfl, rfl⟩
  | int h =>
    obtain ⟨hspan, y, hy, hpositive⟩ | ⟨_, hlarge⟩ := double_int h
    · cases hy.symm.trans hx
      exact .inl ⟨hspan, hpositive⟩
    · cases hlarge.symm.trans hx

end Number

namespace Value

def Numbers (P : Number → Prop) (v : Value) : Prop := ∃ n, v.number? = some n ∧ P n

def isCollection : Value → Bool
  | .list _ | .tuple _ | .set _ | .map _ | .text _ | .bytes _ => true
  | _ => false

variable {v : Value} {n : Number}

theorem atMostZero_eq_false : v.atMostZero = .ok false ↔ v.Numbers Number.Passes := by
  unfold atMostZero Numbers
  cases v.number? with
  | none => simp
  | some n =>
    simp only [Option.some.injEq, exists_eq_left']
    cases n with
    | int i =>
      simp only [Except.ok.injEq, decide_eq_false_iff_not]
      exact ⟨fun h => .int (by omega), fun h => by cases h; omega⟩
    | float x =>
      simp only [Except.ok.injEq, Double.le_zero_eq_false]
      constructor
      · rintro (rfl | h)
        · exact .nan
        · exact .float h
      · rintro (_ | h | _)
        · exact .inr h
        · exact .inl rfl

-- What has a number is not text, so it is the number that is converted.
theorem toInt_of_number? (h : v.number? = some n) : v.toInt = n.whole := by
  cases v with
  | scalar s => cases s <;> cases h <;> rfl
  | _ => cases h

theorem toDouble_of_number? (h : v.number? = some n) : v.toDouble = n.double := by
  cases v with
  | scalar s => cases s <;> cases h <;> rfl
  | _ => cases h

end Value

namespace Config

theorem members_ok_iff {v : Value} : (∃ items, members v = .ok items) ↔ v.isCollection = true := by
  cases v with
  | scalar s => cases s <;> simp [members, Value.isCollection]
  | _ => simp [members, Value.isCollection]

variable {c : Config} {settings : Settings Double}

structure Converts (c : Config) (settings : Settings Double) : Prop where
  memoryLimit : ∃ i, c.sandbox.memoryLimit.toInt = .ok i ∧ settings.memoryLimit = i * 1024 * 1024
  maxExecutionTime : c.sandbox.maxExecutionTime.toDouble = .ok settings.maxExecutionTime
  controlTimeout : c.sandbox.controlTimeout.toDouble = .ok settings.controlTimeout
  noiseMarkers : members c.toolchain.noiseMarkers = .ok settings.noiseMarkers

theorem converts_of_settings (h : c.settings = .ok settings) : c.Converts settings := by
  obtain ⟨memoryLimit, hm, h⟩ := ok_of_bind h
  obtain ⟨maxExecutionTime, ht, h⟩ := ok_of_bind h
  obtain ⟨controlTimeout, hu, h⟩ := ok_of_bind h
  obtain ⟨noiseMarkers, hn, h⟩ := ok_of_bind h
  obtain ⟨i, hi, hm⟩ := ok_of_bind hm
  cases h
  cases hm
  exact ⟨⟨i, hi, rfl⟩, ht, hu, hn⟩

theorem settings_of_ok {i : Int} {t u : Double} {items : List Value}
    (hm : c.sandbox.memoryLimit.toInt = .ok i) (ht : c.sandbox.maxExecutionTime.toDouble = .ok t)
    (hu : c.sandbox.controlTimeout.toDouble = .ok u) (hn : members c.toolchain.noiseMarkers = .ok items) :
    ∃ settings, c.settings = .ok settings := by
  unfold Config.settings Sandbox.memoryBytes
  dsimp only
  rw [hm, ht, hu, hn]
  exact ⟨_, rfl⟩

theorem numbers_of_validate (h : validate c = .ok ()) :
    c.sandbox.memoryLimit.Numbers Number.Passes ∧ c.sandbox.maxExecutionTime.Numbers Number.Passes ∧
      c.sandbox.controlTimeout.Numbers Number.Passes := by
  have hchecks := validate_eq_ok.mp h
  simp only [checks, List.forall_mem_cons] at hchecks
  obtain ⟨-, hm, ht, hu, -⟩ := hchecks
  exact ⟨Value.atMostZero_eq_false.mp hm, Value.atMostZero_eq_false.mp ht, Value.atMostZero_eq_false.mp hu⟩

structure Bounded (settings : Settings Double) : Prop where
  memoryLimit : 1 ≤ settings.memoryLimit
  maxExecutionTime : settings.maxExecutionTime.IsPositive
  controlTimeout : settings.controlTimeout.IsPositive

theorem Converts.memoryLimit_cases (h : c.Converts settings)
    (hn : c.sandbox.memoryLimit.Numbers Number.Passes) :
    c.sandbox.memoryLimit.Numbers Number.IsCount ∧ 1 ≤ settings.memoryLimit ∨
      c.sandbox.memoryLimit.Numbers Number.IsFraction ∧ settings.memoryLimit = 0 := by
  obtain ⟨n, hn, hpasses⟩ := hn
  obtain ⟨i, hi, hlimit⟩ := h.memoryLimit
  rw [Value.toInt_of_number? hn] at hi
  rcases hpasses.isCount_or_isFraction hi with ⟨hcount, h1⟩ | ⟨hfraction, h0⟩
  · exact .inl ⟨⟨n, hn, hcount⟩, by omega⟩
  · exact .inr ⟨⟨n, hn, hfraction⟩, by omega⟩

theorem span_or_nan {v : Value} {x : Double} (hn : v.Numbers Number.Passes) (hx : v.toDouble = .ok x) :
    v.Numbers Number.IsSpan ∧ x.IsPositive ∨ v.number? = some (.float .nan) ∧ x = .nan := by
  obtain ⟨n, hn, hpasses⟩ := hn
  rw [Value.toDouble_of_number? hn] at hx
  rcases hpasses.isSpan_or_nan hx with ⟨hspan, hpositive⟩ | ⟨rfl, hnan⟩
  · exact .inl ⟨⟨n, hn, hspan⟩, hpositive⟩
  · exact .inr ⟨hn, hnan⟩

theorem bounded_iff (hc : validate c = .ok ()) :
    (∃ settings, c.settings = .ok settings ∧ Bounded settings) ↔
      c.sandbox.memoryLimit.Numbers Number.IsCount ∧ c.sandbox.maxExecutionTime.Numbers Number.IsSpan ∧
        c.sandbox.controlTimeout.Numbers Number.IsSpan ∧ c.toolchain.noiseMarkers.isCollection = true := by
  obtain ⟨hm, ht, hu⟩ := numbers_of_validate hc
  constructor
  · rintro ⟨settings, hs, hb⟩
    have hconverts := converts_of_settings hs
    refine ⟨?_, ?_, ?_, members_ok_iff.mp ⟨_, hconverts.noiseMarkers⟩⟩
    · obtain ⟨hcount, _⟩ | ⟨_, hzero⟩ := hconverts.memoryLimit_cases hm
      · exact hcount
      · have := hb.memoryLimit
        omega
    · obtain ⟨hspan, _⟩ | ⟨_, hnan⟩ := span_or_nan ht hconverts.maxExecutionTime
      · exact hspan
      · cases hnan ▸ hb.maxExecutionTime
    · obtain ⟨hspan, _⟩ | ⟨_, hnan⟩ := span_or_nan hu hconverts.controlTimeout
      · exact hspan
      · cases hnan ▸ hb.controlTimeout
  · rintro ⟨⟨m, hm, hcount⟩, ⟨a, ha, haspan⟩, ⟨b, hb, hbspan⟩, hcollection⟩
    obtain ⟨i, hi, h1⟩ := hcount.whole
    obtain ⟨t, ht, htpos⟩ := haspan.double
    obtain ⟨u, hu, hupos⟩ := hbspan.double
    rw [← Value.toInt_of_number? hm] at hi
    rw [← Value.toDouble_of_number? ha] at ht
    rw [← Value.toDouble_of_number? hb] at hu
    obtain ⟨items, hitems⟩ := members_ok_iff.mpr hcollection
    obtain ⟨settings, hs⟩ := settings_of_ok hi ht hu hitems
    have hconverts := converts_of_settings hs
    obtain ⟨j, hj, hlimit⟩ := hconverts.memoryLimit
    cases hi.symm.trans hj
    refine ⟨settings, hs, by omega, ?_, ?_⟩
    · cases ht.symm.trans hconverts.maxExecutionTime
      exact htpos
    · cases hu.symm.trans hconverts.controlTimeout
      exact hupos

end Config

end Playpen
