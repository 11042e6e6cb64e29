import Playpen.Proofs.Number.Rounding

namespace Playpen

def Decimal.value (d : Decimal) : ℚ := d.digits * 10 ^ d.exponent

theorem Decimal.value_dropZeros (fuel : Nat) (d : Decimal) : (d.dropZeros fuel).value = d.value := by
  induction fuel generalizing d with
  | zero => rfl
  | succ fuel ih =>
    unfold dropZeros
    split
    · rename_i hzero
      rw [ih]
      obtain ⟨n, hn⟩ : ∃ n, d.digits = 10 * n := ⟨d.digits / 10, by omega⟩
      unfold value
      dsimp only
      rw [hn, Nat.mul_div_cancel_left n (by decide), zpow_add₀ (by norm_num)]
      push_cast
      ring
    · rfl

namespace Double.Finite

variable {x : Finite}

theorem scaled_eq (x : Finite) (k : Int) : ∃ p r : Nat, 0 < p ∧ 0 < r ∧ (10 : ℚ) ^ k = r / p ∧
    x.scaled k = (x.quanta * p, unit * r) ∧ (if k < 0 then 10 ^ k.natAbs else 1) = p := by
  unfold scaled
  split
  · rename_i hneg
    refine ⟨10 ^ k.natAbs, 1, by positivity, one_pos, ?_, by simp, rfl⟩
    obtain ⟨n, rfl⟩ : ∃ n : Nat, k = -(n : Int) := ⟨k.natAbs, by omega⟩
    rw [Int.natAbs_neg, Int.natAbs_natCast, zpow_neg, zpow_natCast]
    push_cast
    field_simp
  · rename_i hneg
    refine ⟨1, 10 ^ k.natAbs, one_pos, by positivity, ?_, by simp, rfl⟩
    obtain ⟨n, rfl⟩ : ∃ n : Nat, k = (n : Int) := ⟨k.natAbs, by omega⟩
    rw [Int.natAbs_natCast, zpow_natCast]
    push_cast
    field_simp

theorem catches_of_reads {k : Int} {c : Nat} (h : x.reads k c = true) : x.Catches (c * 10 ^ k * unit) := by
  obtain ⟨p, r, hp, hr, hpow, hscaled, hgap⟩ := x.scaled_eq k
  have hvalue : (c * 10 ^ k * unit : ℚ) = (c * (unit * r) : Nat) / p := by
    rw [hpow]
    push_cast
    ring
  rw [hvalue, catches_iff hp]
  unfold reads at h
  simp only [hscaled, quanta, Nat.pow_eq, hgap] at h
  have hnum : x.significand * 2 ^ x.scale * p = x.significand * (p * 2 ^ x.scale) := by ring
  have hgap' : 2 ^ x.scale * p = p * 2 ^ x.scale := Nat.mul_comm _ _
  rw [hnum, hgap'] at h
  generalize p * 2 ^ x.scale = g at h ⊢
  generalize c * (unit * r) = n at h ⊢
  have hupper : (2 * x.significand + 1) * g = 2 * (x.significand * g) + g := by ring
  have hmid : 2 * x.significand * g = 2 * (x.significand * g) := by ring
  have hquad : 4 * x.significand * g = 4 * (x.significand * g) := by ring
  rw [hupper, hmid, hquad]
  generalize x.significand * g = m at h ⊢
  -- Above the number half a gap counts, and below it half of one that may be narrower.
  split at h
  · simp only [Bool.or_eq_true, decide_eq_true_eq, Bool.and_eq_true, beq_iff_eq] at h
    refine ⟨by omega, ?_, by omega⟩
    split <;> omega
  · simp only [Bool.or_eq_true, decide_eq_true_eq, Bool.and_eq_true, beq_iff_eq] at h
    refine ⟨by omega, ?_, ?_⟩
    · split at h
      · rename_i hedge
        rw [if_pos hedge]
        omega
      · rename_i hedge
        rw [if_neg hedge]
        omega
    · intro hodd
      rw [if_neg (by unfold leadingBit; omega)] at h
      omega

theorem roundDiv_near (num : Nat) {den : Nat} (hd : 0 < den) :
    2 * num ≤ (2 * roundDiv num den + 1) * den ∧ 2 * roundDiv num den * den ≤ 2 * num + den := by
  have hdiv := Nat.div_add_mod num den
  have hmod := Nat.mod_lt num hd
  have hstep (q : Nat) : (2 * q + 1) * den = 2 * (den * q) + den ∧ 2 * q * den = 2 * (den * q) := by
    constructor <;> ring
  unfold roundDiv
  dsimp only
  split
  · rw [(hstep _).1, (hstep _).2]
    omega
  · split
    · rw [(hstep _).1, (hstep _).2, Nat.mul_add]
      omega
    · rcases Nat.mod_two_eq_zero_or_one (num / den) with h | h <;> rw [h, (hstep _).1, (hstep _).2, Nat.mul_add] <;>
        omega

theorem quanta_pos (hs : x.significand ≠ 0) : 0 < x.quanta :=
  Nat.mul_pos (Nat.pos_of_ne_zero hs) (Nat.pow_pos (by decide))

theorem le_quanta (hs : x.significand ≠ 0) : (10 : ℚ) ^ (x.point - 1) * unit ≤ x.quanta := by
  obtain ⟨n, hn, hunit⟩ := unit_eq
  -- As a variable, so that the power is never computed.
  obtain ⟨m, hm⟩ : ∃ m, m = 400 := ⟨_, rfl⟩
  have hpos := quanta_pos hs
  have hunitPos : 0 < unit := hunit ▸ Nat.two_pow_pos n
  have hmany : unit ≤ x.quanta * 10 ^ m := by
    rw [hunit]
    calc 2 ^ n
      _ ≤ 2 ^ (3 * m) := Nat.pow_le_pow_right (by decide) (by omega)
      _ = 8 ^ m := by rw [Nat.pow_mul]
      _ ≤ 1 * 10 ^ m := by rw [one_mul]; exact Nat.pow_le_pow_left (by decide) _
      _ ≤ x.quanta * 10 ^ m := Nat.mul_le_mul_right _ hpos
  have hpoint : x.point = (Decimal.countDigits (x.quanta * 10 ^ m / unit) : Int) - 400 := by
    unfold point
    rw [← hm, Nat.pow_eq]
  generalize hwhole : x.quanta * 10 ^ m / unit = whole at hpoint
  have hlarge : 0 < whole := hwhole ▸ Nat.div_pos hmany hunitPos
  obtain ⟨d, hd⟩ : ∃ d, (Nat.toDigits 10 whole).length = d + 1 :=
    ⟨_, (Nat.succ_pred_eq_of_pos (List.length_pos_iff.mpr Nat.toDigits_ne_nil)).symm⟩
  have hpow : 10 ^ d ≤ whole := by
    by_contra hless
    rcases Nat.eq_zero_or_pos d with rfl | hdpos
    · exact hless hlarge
    · have := (Nat.length_toDigits_le_iff (b := 10) (by decide) hdpos).mpr (Nat.lt_of_not_le hless)
      omega
  have hscaled : 10 ^ d * unit ≤ x.quanta * 10 ^ m :=
    (Nat.mul_le_mul_right unit (hwhole ▸ hpow)).trans (Nat.div_mul_le_self _ _)
  have hexponent : x.point - 1 = (d : Int) - (m : Int) := by
    rw [hpoint, Decimal.countDigits, hd, hm]
    omega
  rw [hexponent, zpow_sub₀ (by norm_num), zpow_natCast, zpow_natCast, div_mul_eq_mul_div,
    div_le_iff₀ (by positivity)]
  exact_mod_cast hscaled

theorem catches_of_near {q : ℚ} (hhigh : 2 * q ≤ 2 * x.quanta + x.quanta / 10 ^ 16)
    (hlow : 2 * x.quanta - x.quanta / 10 ^ 16 ≤ 2 * q) : x.Catches q := by
  have hquanta : (x.quanta : ℚ) = x.significand * 2 ^ x.scale := by
    unfold quanta
    rw [Nat.pow_eq]
    push_cast
    rfl
  obtain ⟨hsmall, -, -⟩ := x.normal
  rw [hquanta] at hhigh hlow
  have hs : (x.significand : ℚ) < 2 ^ 53 := by
    have : x.significand < 2 ^ 53 := by
      unfold leadingBit at hsmall
      omega
    exact_mod_cast this
  have hp : (0 : ℚ) < 2 ^ x.scale := by positivity
  have hgap : (x.significand : ℚ) * 2 ^ x.scale / 10 ^ 16 < 2 ^ x.scale := by
    rw [div_lt_iff₀ (by positivity)]
    nlinarith
  refine ⟨by linarith, ?_, fun _ => ⟨by linarith, by linarith⟩⟩
  unfold below
  split
  · rename_i hedge
    have hhalf : (x.significand : ℚ) * 2 ^ x.scale / 10 ^ 16 ≤ 1 / 2 * 2 ^ x.scale := by
      rw [hedge.1, div_le_iff₀ (by positivity)]
      unfold leadingBit
      nlinarith
    linarith
  · linarith

theorem catches_of_fine {k : Int} (h : (10 : ℚ) ^ k * unit ≤ x.quanta / 10 ^ 16) :
    x.Catches ((x.nearest k).value * unit) := by
  obtain ⟨p, r, hp, hr, hpow, hscaled, -⟩ := x.scaled_eq k
  have hunitPos : 0 < unit := by
    obtain ⟨n, -, hunit⟩ := unit_eq
    rw [hunit]
    positivity
  have hpPos : (0 : ℚ) < p := by exact_mod_cast hp
  obtain ⟨hhigh, hlow⟩ := roundDiv_near (x.quanta * p) (Nat.mul_pos hunitPos hr)
  unfold nearest Decimal.value
  rw [hscaled]
  dsimp only
  generalize roundDiv (x.quanta * p) (unit * r) = digits at hhigh hlow ⊢
  have hhigh' : (2 * (x.quanta * p) : ℚ) ≤ (2 * digits + 1) * (unit * r) := by exact_mod_cast hhigh
  have hlow' : (2 * digits * (unit * r) : ℚ) ≤ 2 * (x.quanta * p) + unit * r := by exact_mod_cast hlow
  have hq : (digits * 10 ^ k * unit : ℚ) = digits * (unit * r) / p := by
    rw [hpow]
    ring
  have hg : (10 ^ k * unit : ℚ) = unit * r / p := by
    rw [hpow]
    ring
  rw [hg] at h
  rw [hq]
  apply catches_of_near
  · have : 2 * (digits * (unit * r) / p : ℚ) ≤ 2 * x.quanta + unit * r / p := by
      rw [← mul_div_assoc, div_le_iff₀ hpPos, add_mul, div_mul_cancel₀ _ hpPos.ne']
      linarith
    linarith
  · have : 2 * (x.quanta : ℚ) - unit * r / p ≤ 2 * (digits * (unit * r) / p : ℚ) := by
      rw [← mul_div_assoc, le_div_iff₀ hpPos, sub_mul, div_mul_cancel₀ _ hpPos.ne']
      linarith
    linarith

theorem onGrid_catches {k : Int} {d : Decimal} (h : x.onGrid? k = some d) : x.Catches (d.value * unit) := by
  unfold onGrid? nearest at h
  generalize hscaled : x.scaled k = quotient at h
  obtain ⟨num, den⟩ := quotient
  dsimp only at h
  split at h <;> cases h
  · rename_i hbelow habove
    have hround : roundDiv num den = num / den ∨ roundDiv num den = num / den + 1 := by
      unfold roundDiv
      dsimp only
      split
      · exact .inl rfl
      · split
        · exact .inr rfl
        · omega
    unfold Decimal.value
    dsimp only
    rcases hround with hround | hround <;> rw [hround]
    · exact catches_of_reads hbelow
    · exact catches_of_reads habove
  · rename_i hbelow _
    exact catches_of_reads hbelow
  · rename_i _ habove
    exact catches_of_reads habove

theorem shortestFrom_catches {point : Int} (h : (10 : ℚ) ^ (point - 1) * unit ≤ x.quanta) (fuel count : Nat)
    (hcount : fuel + count = 17) : x.Catches ((x.shortestFrom point fuel count).value * unit) := by
  induction fuel generalizing count with
  | zero =>
    obtain rfl : count = 17 := by omega
    apply catches_of_fine
    rw [le_div_iff₀ (by positivity), mul_right_comm]
    have hgrid : (10 : ℚ) ^ (point - (17 : Nat)) * 10 ^ 16 = 10 ^ (point - 1) := by
      rw [← zpow_natCast, ← zpow_add₀ (by norm_num), show point - (17 : Nat) + ((16 : Nat) : Int) = point - 1 by omega]
    rw [hgrid]
    exact h
  | succ fuel ih =>
    unfold shortestFrom
    split
    · rename_i hd
      exact onGrid_catches hd
    · exact ih (count + 1) (by omega)

theorem shortest_catches (hs : x.significand ≠ 0) : x.Catches (x.shortest.value * unit) := by
  unfold shortest Decimal.strip
  rw [Decimal.value_dropZeros]
  exact shortestFrom_catches (le_quanta hs) 16 1 rfl

end Double.Finite

end Playpen
