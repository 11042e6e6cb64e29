import Playpen.Proofs.Number.Rounding

namespace Playpen

theorem div_le_roundDiv (num den : Nat) : num / den ≤ roundDiv num den := by
  unfold roundDiv
  dsimp only
  split
  · exact Nat.le_refl _
  · split <;> omega

theorem roundDiv_le_succ (num den : Nat) : roundDiv num den ≤ num / den + 1 := by
  unfold roundDiv
  dsimp only
  split
  · omega
  · split <;> omega

theorem le_roundDiv_iff {num den k : Nat} (hd : 0 < den) (hk : k % 2 = 0) :
    k ≤ roundDiv num den ↔ 2 * (den * k) ≤ 2 * num + den := by
  have hdiv := Nat.div_add_mod num den
  have hmod := Nat.mod_lt num hd
  rcases Nat.lt_trichotomy (num / den + 1) k with hlt | rfl | hgt
  · have hfar : den * (num / den + 2) ≤ den * k := Nat.mul_le_mul_left den hlt
    rw [Nat.mul_add] at hfar
    have hrounded := roundDiv_le_succ num den
    constructor <;> intro h <;> omega
  · rw [Nat.mul_add, Nat.mul_one]
    unfold roundDiv
    dsimp only
    split
    · constructor <;> intro h <;> omega
    · split <;> constructor <;> intro h <;> omega
  · have hnear : den * k ≤ den * (num / den) := Nat.mul_le_mul_left den (by omega)
    have hrounded := div_le_roundDiv num den
    constructor <;> intro h <;> omega

namespace Double

def edge : Nat := (2 ^ 54 - 1) * Nat.pow 2 2044

theorem edge_eq : ∃ n, n = 2044 ∧ edge = (2 ^ 54 - 1) * 2 ^ n := by
  obtain ⟨n, hn⟩ : ∃ n, n = 2044 := ⟨_, rfl⟩
  refine ⟨n, hn, ?_⟩
  unfold edge
  rw [← hn, Nat.pow_eq]

theorem scaleOf_spec (quanta : Nat) : quanta < 2 ^ (53 + scaleOf quanta) ∧
    (scaleOf quanta = 0 ∨ 2 ^ (52 + scaleOf quanta) ≤ quanta) := by
  have hlog : quanta < 2 ^ (quanta.log2 + 1) := Nat.lt_log2_self
  refine ⟨Nat.lt_of_lt_of_le hlog (Nat.pow_le_pow_right (by decide) (by unfold scaleOf; omega)), ?_⟩
  by_cases hscale : scaleOf quanta = 0
  · exact .inl hscale
  · right
    have hne : quanta ≠ 0 := by
      rintro rfl
      exact hscale rfl
    rw [show 52 + scaleOf quanta = quanta.log2 by unfold scaleOf at hscale ⊢; omega]
    exact Nat.log2_self_le hne

variable {negative : Bool} {num den : Nat}

theorem ofQuotient_cases (negative : Bool) (num den : Nat) :
    (∃ x, ofQuotient negative num den = .finite x ∧ x.negative = negative) ∨
      ofQuotient negative num den = .infinite negative := by
  unfold ofQuotient
  dsimp only
  split
  · exact .inl ⟨_, rfl, rfl⟩
  · split
    · exact .inl ⟨_, rfl, rfl⟩
    · exact .inr rfl

theorem ofQuotient_eq_infinite (hd : 0 < den) : ofQuotient negative num den = .infinite negative ↔
    2045 < scaleOf (num / den) ∨
      scaleOf (num / den) = 2045 ∧ 2 ^ 53 ≤ roundDiv num (den * 2 ^ scaleOf (num / den)) := by
  obtain ⟨hsmall, hlarge⟩ := scaleOf_spec (num / den)
  unfold ofQuotient
  dsimp only
  rw [Nat.pow_eq]
  generalize scaleOf (num / den) = scale at hsmall hlarge
  have hD : 0 < den * 2 ^ scale := Nat.mul_pos hd (Nat.two_pow_pos _)
  have hupper : roundDiv num (den * 2 ^ scale) ≤ 2 ^ 53 := by
    refine Nat.le_trans (roundDiv_le_succ _ _) (Nat.div_lt_of_lt_mul ?_)
    rw [Nat.div_lt_iff_lt_mul hd, Nat.pow_add] at hsmall
    calc num
      _ < 2 ^ 53 * 2 ^ scale * den := hsmall
      _ = den * 2 ^ scale * 2 ^ 53 := by ring
  have hlower : scale = 0 ∨ 2 ^ 52 ≤ roundDiv num (den * 2 ^ scale) := by
    refine hlarge.imp_right fun h => Nat.le_trans ?_ (div_le_roundDiv _ _)
    rw [Nat.le_div_iff_mul_le hd, Nat.pow_add] at h
    rw [Nat.le_div_iff_mul_le hD]
    calc 2 ^ 52 * (den * 2 ^ scale)
      _ = 2 ^ 52 * 2 ^ scale * den := by ring
      _ ≤ num := h
  -- Only these bounds of the rounded quotient matter from here on.
  generalize roundDiv num (den * 2 ^ scale) = r at hupper hlower
  unfold Normal leadingBit
  split
  · constructor
    · intro h
      cases h
    · omega
  · split
    · constructor
      · intro h
        cases h
      · omega
    · refine iff_of_true rfl ?_
      omega

theorem ofQuotient_eq_infinite_iff (hd : 0 < den) :
    ofQuotient negative num den = .infinite negative ↔ edge * den ≤ num := by
  obtain ⟨n, hn, hedge⟩ := edge_eq
  obtain ⟨hsmall, hlarge⟩ := scaleOf_spec (num / den)
  rw [ofQuotient_eq_infinite hd, hedge, ← Nat.le_div_iff_mul_le hd]
  rcases Nat.lt_trichotomy (scaleOf (num / den)) (n + 1) with hlt | heq | hgt
  · have hbelow : num / den < 2 ^ 53 * 2 ^ n := by
      rw [← Nat.pow_add]
      exact Nat.lt_of_lt_of_le hsmall (Nat.pow_le_pow_right (by decide) (by omega))
    refine iff_of_false (by omega) (Nat.not_le.mpr ?_)
    omega
  · have hD : 0 < den * 2 ^ (n + 1) := Nat.mul_pos hd (Nat.two_pow_pos _)
    have hgap : den * 2 ^ (n + 1) = 2 * (2 ^ n * den) := by ring
    rw [heq, le_roundDiv_iff hD rfl, Nat.le_div_iff_mul_le hd, hgap, Nat.mul_assoc _ (2 ^ n)]
    omega
  · have habove : 2 ^ 54 * 2 ^ n ≤ num / den := by
      rw [← Nat.pow_add]
      have hscale := hlarge.resolve_left (by omega)
      exact Nat.le_trans (Nat.pow_le_pow_right (by decide) (by omega)) hscale
    refine iff_of_true (.inl (by omega)) ?_
    omega

def Finite.value (x : Finite) : ℚ := x.quanta / unit

def bound : ℚ := 2 ^ 1024 - 2 ^ 970

theorem unit_cast_pos : (0 : ℚ) < unit := by
  obtain ⟨n, -, hunit⟩ := unit_eq
  rw [hunit]
  positivity

theorem bound_mul_unit : bound * unit = edge := by
  obtain ⟨n, hn, hunit⟩ := unit_eq
  obtain ⟨m, hm, hedge⟩ := edge_eq
  rw [bound, hunit, hedge]
  push_cast
  rw [sub_mul, ← pow_add, ← pow_add, show 1024 + n = 54 + m by omega, show 970 + n = m by omega, pow_add]
  ring

theorem ofDecimal_cases (negative : Bool) (digits : Nat) (exponent : Int) :
    (∃ x, ofDecimal negative digits exponent = .finite x ∧ x.negative = negative) ∨
      ofDecimal negative digits exponent = .infinite negative := by
  unfold ofDecimal
  split
  · exact .inl ⟨_, rfl, rfl⟩
  · split
    · exact .inl ⟨_, rfl, rfl⟩
    · split
      · exact .inr rfl
      · split <;> exact ofQuotient_cases ..

theorem bound_le_iff {q : ℚ} : bound ≤ q ↔ edge ≤ q * unit := by
  rw [← bound_mul_unit, mul_le_mul_iff_of_pos_right unit_cast_pos]

theorem ofDecimal_eq_infinite_iff {digits : Nat} {exponent : Int} :
    ofDecimal negative digits exponent = .infinite negative ↔ bound ≤ digits * 10 ^ exponent := by
  have hedge : (1 : ℚ) ≤ edge ∧ 2 * (edge : ℚ) ≤ 2 ^ (54 + 2045) := by
    obtain ⟨m, hm, hedge⟩ := edge_eq
    rw [hedge, show 54 + 2045 = 54 + (m + 1) by omega, pow_add, pow_succ _ m]
    have hone : (1 : ℚ) ≤ 2 ^ m := one_le_pow₀ (by norm_num)
    push_cast
    constructor <;> linarith
  rw [bound_le_iff]
  -- Exponents out of all proportion are answered without a quotient, in agreement with the bound.
  unfold ofDecimal
  split
  · rename_i hzero
    refine iff_of_false nofun (not_le.mpr ?_)
    rw [hzero, Nat.cast_zero, zero_mul, zero_mul]
    exact lt_of_lt_of_le one_pos hedge.1
  · rename_i hd
    split
    · rename_i hlow
      have := tiny hd hlow
      exact iff_of_false nofun (by linarith)
    · split
      · rename_i hhigh
        exact iff_of_true rfl (le_of_mul_le_mul_left (hedge.2.trans (huge hd hhigh)) two_pos)
      · split
        · rename_i hneg
          obtain ⟨k, rfl⟩ : ∃ k : Nat, exponent = -(k : Int) := ⟨exponent.natAbs, by omega⟩
          have hten : (0 : ℚ) < 10 ^ k := by positivity
          rw [Int.natAbs_neg, Int.natAbs_natCast, Nat.pow_eq, ofQuotient_eq_infinite_iff (Nat.pow_pos (by decide)),
            zpow_neg, zpow_natCast, mul_right_comm, ← div_eq_mul_inv, le_div_iff₀ hten, ← Nat.cast_le (α := ℚ)]
          push_cast
          rfl
        · rename_i hpos
          obtain ⟨k, rfl⟩ : ∃ k : Nat, exponent = (k : Int) := ⟨exponent.natAbs, by omega⟩
          rw [Int.natAbs_natCast, Nat.pow_eq, ofQuotient_eq_infinite_iff Nat.one_pos, zpow_natCast, mul_right_comm,
            mul_one, ← Nat.cast_le (α := ℚ)]
          push_cast
          rfl

theorem mul_eq_infinite_iff {x y : Finite} :
    mul (.finite x) (.finite y) = .infinite (x.negative != y.negative) ↔ bound ≤ x.value * y.value := by
  have hunit := unit_cast_pos
  have hvalue : x.value * y.value * unit * unit = x.quanta * y.quanta := by
    unfold Finite.value
    field_simp
  rw [mul, ofQuotient_eq_infinite_iff (Nat.cast_pos.mp hunit), ← Nat.cast_le (α := ℚ), Nat.cast_mul, Nat.cast_mul,
    ← bound_mul_unit, ← hvalue, mul_le_mul_iff_of_pos_right hunit, mul_le_mul_iff_of_pos_right hunit]

theorem Finite.catches_self (x : Finite) : x.Catches x.quanta := by
  have hpow : (0 : ℚ) < 2 ^ x.scale := by positivity
  have hquanta : (x.quanta : ℚ) = x.significand * 2 ^ x.scale := by
    rw [Finite.quanta, Nat.pow_eq]
    push_cast
    rfl
  have hbelow : 0 ≤ x.below := by
    unfold Finite.below
    split <;> norm_num
  constructor
  · rw [hquanta]
    linarith
  · rw [hquanta]
    nlinarith
  · intro _
    rw [hquanta]
    constructor <;> intro h <;> linarith

theorem ofQuotient_whole (negative : Bool) {k : Nat} (hd : 0 < den) (hk : k < 2 ^ 53) (h : num = k * unit * den) :
    ∃ x : Finite, ofQuotient negative num den = .finite x ∧ x.negative = negative ∧ x.quanta = k * unit := by
  by_cases hzero : k = 0
  · obtain rfl : num = 0 := by rw [h, hzero, Nat.zero_mul, Nat.zero_mul]
    have hrounded : roundDiv 0 (den * 2 ^ 0) = 0 :=
      roundDiv_eq (Nat.mul_pos hd Nat.one_pos) (Nat.zero_le _) (by omega) nofun
    refine ⟨_, ofQuotient_normal negative (by rw [Nat.zero_div]; rfl) hrounded (by decide), rfl, ?_⟩
    rw [hzero, Finite.quanta, Nat.zero_mul, Nat.zero_mul]
  · obtain ⟨n, hn, hunit⟩ := unit_eq
    have hlog : k.log2 < 53 := (Nat.log2_lt hzero).mpr hk
    have hsmall : k * 2 ^ (52 - k.log2) < 2 ^ 53 := by
      have := Nat.mul_lt_mul_of_pos_right (k := 2 ^ (52 - k.log2)) (Nat.lt_log2_self (n := k)) (Nat.two_pow_pos _)
      rwa [← Nat.pow_add, show k.log2 + 1 + (52 - k.log2) = 53 by omega] at this
    have hlarge : 2 ^ 52 ≤ k * 2 ^ (52 - k.log2) := by
      have := Nat.mul_le_mul_right (2 ^ (52 - k.log2)) (Nat.log2_self_le hzero)
      rwa [← Nat.pow_add, show k.log2 + (52 - k.log2) = 52 by omega] at this
    let x : Finite := ⟨negative, k * 2 ^ (52 - k.log2), n - (52 - k.log2), hsmall, by omega, .inr hlarge⟩
    have hquanta : x.quanta = k * unit := by
      show k * 2 ^ (52 - k.log2) * Nat.pow 2 (n - (52 - k.log2)) = _
      rw [Nat.pow_eq, Nat.mul_assoc, ← Nat.pow_add, hunit, show 52 - k.log2 + (n - (52 - k.log2)) = n by omega]
    have hq : (num : ℚ) / den = x.quanta := by
      have hden : (den : ℚ) ≠ 0 := Nat.cast_ne_zero.mpr (Nat.ne_of_gt hd)
      rw [h, hquanta, Nat.cast_mul, mul_div_cancel_right₀ _ hden]
    exact ⟨x, ofQuotient_of_catches hd (hq ▸ x.catches_self), rfl, hquanta⟩

theorem ofInt_whole {k : Nat} (hk : k < 2 ^ 53) :
    ∃ x : Finite, ofInt k = .finite x ∧ x.negative = false ∧ x.quanta = k * unit := by
  have hsign : decide ((k : Int) < 0) = false := by simp
  unfold ofInt
  rw [hsign, Int.natAbs_natCast]
  exact ofQuotient_whole false Nat.one_pos hk (Nat.mul_one _).symm

theorem ofDecimal_whole {k : Nat} (hk : k < 2 ^ 53) :
    ∃ x : Finite, ofDecimal false k 0 = .finite x ∧ x.negative = false ∧ x.quanta = k * unit := by
  unfold ofDecimal
  split
  · rename_i hzero
    refine ⟨_, rfl, rfl, ?_⟩
    rw [hzero, Finite.quanta, Nat.zero_mul, Nat.zero_mul]
  · rw [if_neg (by omega), if_neg (by decide), if_neg (by decide)]
    exact ofQuotient_whole false Nat.one_pos hk rfl

theorem Finite.value_eq {x : Finite} {k : Nat} (h : x.quanta = k * unit) : x.value = k := by
  rw [Finite.value, h, Nat.cast_mul, mul_div_cancel_right₀ _ unit_cast_pos.ne']

theorem truncate_unsigned {x : Finite} (h : x.negative = false) :
    truncate (.finite x) = .ok ((x.quanta / unit : Nat) : Int) := by
  rw [truncate, Finite.signedQuanta, h]
  exact congrArg Except.ok (Int.tdiv_eq_ediv_of_nonneg (Int.natCast_nonneg _))

end Double

end Playpen
