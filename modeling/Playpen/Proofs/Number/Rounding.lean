import Mathlib.Algebra.Order.Field.Power
import Mathlib.Data.Nat.Log
import Mathlib.Data.Rat.Cast.Order
import Mathlib.Tactic.FieldSimp
import Mathlib.Tactic.Linarith
import Mathlib.Tactic.Ring
import Playpen.Number.Decimal

namespace Playpen

theorem roundDiv_eq {num den s : Nat} (hd : 0 < den) (hupper : 2 * num ≤ (2 * s + 1) * den)
    (hlower : 2 * s * den ≤ 2 * num + den)
    (hodd : s % 2 = 1 → 2 * num ≠ (2 * s + 1) * den ∧ 2 * s * den ≠ 2 * num + den) : roundDiv num den = s := by
  have hdiv := Nat.div_add_mod num den
  have hmod := Nat.mod_lt num hd
  have hexpand : (2 * s + 1) * den = 2 * (den * s) + den ∧ 2 * s * den = 2 * (den * s) := by
    constructor <;> ring
  rw [hexpand.1] at hupper hodd
  rw [hexpand.2] at hlower hodd
  -- Rounding adds one at most, so the quotient is `s`, or one less and rounded up.
  rcases Nat.lt_trichotomy (num / den) s with hlt | heq | hgt
  · have hstep : den * (num / den + 1) ≤ den * s := Nat.mul_le_mul_left den hlt
    have hnext : num / den + 1 = s := by
      by_contra hne
      have hfar : den * (num / den + 2) ≤ den * s := Nat.mul_le_mul_left den (by omega)
      rw [Nat.mul_add] at hfar
      omega
    rw [Nat.mul_add] at hstep
    have hs : den * s = den * (num / den) + den := by rw [← hnext, Nat.mul_add, Nat.mul_one]
    unfold roundDiv
    dsimp only
    split
    · omega
    · split
      · exact hnext
      · by_cases hparity : s % 2 = 1
        · have hne := (hodd hparity).2
          omega
        · omega
  · unfold roundDiv
    rw [heq] at hdiv ⊢
    dsimp only
    split
    · rfl
    · split
      · omega
      · by_cases hparity : s % 2 = 1
        · have hne := (hodd hparity).1
          omega
        · omega
  · have hfar : den * (s + 1) ≤ den * (num / den) := Nat.mul_le_mul_left den hgt
    rw [Nat.mul_add] at hfar
    omega

namespace Double

def Finite.below (x : Finite) : ℚ := if x.significand = leadingBit ∧ 0 < x.scale then 1 / 2 else 1

structure Finite.Catches (x : Finite) (q : ℚ) : Prop where
  upper : 2 * q ≤ (2 * x.significand + 1) * 2 ^ x.scale
  lower : (2 * x.significand - x.below) * 2 ^ x.scale ≤ 2 * q
  odd : x.significand % 2 = 1 →
    2 * q ≠ (2 * x.significand + 1) * 2 ^ x.scale ∧ 2 * q ≠ (2 * x.significand - 1) * 2 ^ x.scale

theorem scaleOf_eq {quanta scale : Nat} (hlow : scale = 0 ∨ 2 ^ (52 + scale) ≤ quanta)
    (hhigh : quanta < 2 ^ (53 + scale)) : scaleOf quanta = scale := by
  unfold scaleOf
  rcases hlow with rfl | hlow
  · by_cases hzero : quanta = 0
    · subst hzero
      rfl
    · have hlog := (Nat.log2_lt hzero).mpr hhigh
      omega
  · have hne : quanta ≠ 0 := by
      have := Nat.two_pow_pos (52 + scale)
      omega
    have hlog : quanta.log2 = 52 + scale := (Nat.log2_eq_iff hne).mpr ⟨hlow, by
      rw [show 52 + scale + 1 = 53 + scale by omega]
      exact hhigh⟩
    omega

variable {x : Finite} {num den : Nat}

theorem Finite.catches_iff (hd : 0 < den) : x.Catches (num / den) ↔
    2 * num ≤ (2 * x.significand + 1) * (den * 2 ^ x.scale) ∧
      (if x.significand = leadingBit ∧ 0 < x.scale
        then 4 * x.significand * (den * 2 ^ x.scale) ≤ 4 * num + den * 2 ^ x.scale
        else 2 * x.significand * (den * 2 ^ x.scale) ≤ 2 * num + den * 2 ^ x.scale) ∧
      (x.significand % 2 = 1 → 2 * num ≠ (2 * x.significand + 1) * (den * 2 ^ x.scale) ∧
        2 * x.significand * (den * 2 ^ x.scale) ≠ 2 * num + den * 2 ^ x.scale) := by
  have hden : (0 : ℚ) < den := by exact_mod_cast hd
  have hq : 2 * ((num : ℚ) / den) = 2 * num / den := by ring
  -- Each bound and each tie on its own, cleared of the denominator.
  have hupper : 2 * ((num : ℚ) / den) ≤ (2 * x.significand + 1) * 2 ^ x.scale ↔
      2 * num ≤ (2 * x.significand + 1) * (den * 2 ^ x.scale) := by
    rw [hq, div_le_iff₀ hden, mul_right_comm, mul_assoc]
    exact_mod_cast Iff.rfl
  have hlower (b : ℚ) : (2 * x.significand - b) * 2 ^ x.scale ≤ 2 * ((num : ℚ) / den) ↔
      2 * (x.significand : ℚ) * (den * 2 ^ x.scale) ≤ 2 * num + b * (den * 2 ^ x.scale) := by
    rw [hq, le_div_iff₀ hden]
    constructor <;> intro h <;> linarith
  have hhigh : 2 * ((num : ℚ) / den) = (2 * x.significand + 1) * 2 ^ x.scale ↔
      2 * num = (2 * x.significand + 1) * (den * 2 ^ x.scale) := by
    rw [hq, div_eq_iff hden.ne', mul_right_comm, mul_assoc]
    exact_mod_cast Iff.rfl
  have hlow : 2 * ((num : ℚ) / den) = (2 * x.significand - 1) * 2 ^ x.scale ↔
      2 * x.significand * (den * 2 ^ x.scale) = 2 * num + den * 2 ^ x.scale := by
    rw [hq, div_eq_iff hden.ne', ← Nat.cast_inj (R := ℚ)]
    push_cast
    constructor <;> intro h <;> linarith
  have hbelow : (2 * x.significand - x.below) * 2 ^ x.scale ≤ 2 * ((num : ℚ) / den) ↔
      if x.significand = leadingBit ∧ 0 < x.scale
        then 4 * x.significand * (den * 2 ^ x.scale) ≤ 4 * num + den * 2 ^ x.scale
        else 2 * x.significand * (den * 2 ^ x.scale) ≤ 2 * num + den * 2 ^ x.scale := by
    rw [hlower]
    unfold Finite.below
    split
    · rw [← Nat.cast_le (α := ℚ)]
      push_cast
      constructor <;> intro h <;> linarith
    · rw [one_mul]
      exact_mod_cast Iff.rfl
  constructor
  · rintro ⟨h₁, h₂, h₃⟩
    exact ⟨hupper.mp h₁, hbelow.mp h₂, fun h => ⟨hhigh.not.mp (h₃ h).1, hlow.not.mp (h₃ h).2⟩⟩
  · rintro ⟨h₁, h₂, h₃⟩
    exact ⟨hupper.mpr h₁, hbelow.mpr h₂, fun h => ⟨hhigh.not.mpr (h₃ h).1, hlow.not.mpr (h₃ h).2⟩⟩

theorem ofQuotient_normal (negative : Bool) {significand scale : Nat} (hs : scaleOf (num / den) = scale)
    (hr : roundDiv num (den * 2 ^ scale) = significand) (h : Normal significand scale) :
    ofQuotient negative num den = .finite ⟨negative, significand, scale, h⟩ := by
  subst hs
  subst hr
  exact dif_pos h

theorem ofQuotient_carried (negative : Bool) {scale : Nat} (hs : scaleOf (num / den) = scale)
    (hr : roundDiv num (den * 2 ^ scale) = 2 * leadingBit) (h : Normal leadingBit (scale + 1)) :
    ofQuotient negative num den = .finite ⟨negative, leadingBit, scale + 1, h⟩ := by
  subst hs
  have hover : ¬ Normal (roundDiv num (den * 2 ^ scaleOf (num / den))) (scaleOf (num / den)) := by
    rw [hr]
    exact fun hn => Nat.lt_irrefl _ hn.1
  exact (dif_neg hover).trans (dif_pos h)

theorem ofQuotient_below (hd : 0 < den) (hlead : x.significand = leadingBit) (hpos : 0 < x.scale)
    (hless : num < leadingBit * (den * 2 ^ x.scale))
    (hlower : 4 * leadingBit * (den * 2 ^ x.scale) ≤ 4 * num + den * 2 ^ x.scale) :
    ofQuotient x.negative num den = .finite x := by
  obtain ⟨scale, hsucc⟩ : ∃ scale, x.scale = scale + 1 := ⟨x.scale - 1, by omega⟩
  have hhalf : den * 2 ^ x.scale = 2 * (den * 2 ^ scale) := by
    rw [hsucc, Nat.pow_succ]
    ring
  rw [hhalf] at hless hlower
  unfold leadingBit at hless hlower
  have hscaled : scaleOf (num / den) = scale := by
    apply scaleOf_eq
    · right
      rw [Nat.le_div_iff_mul_le hd, Nat.pow_add, Nat.mul_assoc, Nat.mul_comm (2 ^ scale)]
      omega
    · rw [Nat.div_lt_iff_lt_mul hd, Nat.pow_add, Nat.mul_assoc, Nat.mul_comm (2 ^ scale)]
      omega
  have hrounded : roundDiv num (den * 2 ^ scale) = 2 * leadingBit := by
    unfold leadingBit
    apply roundDiv_eq (Nat.mul_pos hd (Nat.two_pow_pos _))
    · omega
    · omega
    · intro hodd
      cases hodd
  have hnext : Normal leadingBit (scale + 1) := by
    rw [← hlead, ← hsucc]
    exact x.normal
  rw [ofQuotient_carried x.negative hscaled hrounded hnext]
  cases x
  simp_all

theorem ofQuotient_beside (hd : 0 < den) (hupper : 2 * num ≤ (2 * x.significand + 1) * (den * 2 ^ x.scale))
    (hlower : 2 * x.significand * (den * 2 ^ x.scale) ≤ 2 * num + den * 2 ^ x.scale)
    (hodd : x.significand % 2 = 1 → 2 * num ≠ (2 * x.significand + 1) * (den * 2 ^ x.scale) ∧
      2 * x.significand * (den * 2 ^ x.scale) ≠ 2 * num + den * 2 ^ x.scale)
    (hedge : x.significand = leadingBit → 0 < x.scale → leadingBit * (den * 2 ^ x.scale) ≤ num) :
    ofQuotient x.negative num den = .finite x := by
  obtain ⟨hsmall, -, hnormal⟩ := x.normal
  have hrounded := roundDiv_eq (Nat.mul_pos hd (Nat.two_pow_pos _)) hupper hlower hodd
  unfold leadingBit at hsmall hnormal hedge
  have hhigh : num / den < 2 ^ (53 + x.scale) := by
    rw [Nat.div_lt_iff_lt_mul hd, Nat.pow_add, Nat.mul_assoc, Nat.mul_comm (2 ^ x.scale)]
    have := Nat.mul_le_mul_right (den * 2 ^ x.scale) (show 2 * x.significand + 1 ≤ 2 * 2 ^ 53 - 1 by omega)
    rw [Nat.sub_mul, Nat.mul_assoc] at this
    have := Nat.mul_pos hd (Nat.two_pow_pos x.scale)
    omega
  have hlow : x.scale = 0 ∨ 2 ^ (52 + x.scale) ≤ num / den := by
    refine or_iff_not_imp_left.mpr fun hpos => ?_
    rw [Nat.le_div_iff_mul_le hd, Nat.pow_add, Nat.mul_assoc, Nat.mul_comm (2 ^ x.scale)]
    by_cases hlead : x.significand = 0x10000000000000
    · exact hedge hlead (Nat.pos_of_ne_zero hpos)
    · have := Nat.mul_le_mul_right (den * 2 ^ x.scale) (show 2 * (2 ^ 52 + 1) ≤ 2 * x.significand by omega)
      rw [Nat.mul_assoc, Nat.add_mul] at this
      omega
  rw [ofQuotient_normal x.negative (scaleOf_eq hlow hhigh) hrounded x.normal]

theorem ofQuotient_of_catches (hd : 0 < den) (h : x.Catches (num / den)) :
    ofQuotient x.negative num den = .finite x := by
  obtain ⟨hupper, hlower, hodd⟩ := (Finite.catches_iff hd).mp h
  by_cases hedge : x.significand = leadingBit ∧ 0 < x.scale
  · obtain ⟨hlead, hpos⟩ := hedge
    rw [if_pos ⟨hlead, hpos⟩, hlead] at hlower
    rcases Nat.lt_or_ge num (leadingBit * (den * 2 ^ x.scale)) with hless | hmore
    · exact ofQuotient_below hd hlead hpos hless hlower
    · refine ofQuotient_beside hd hupper ?_ hodd fun _ _ => hmore
      rw [hlead, Nat.mul_assoc]
      omega
  · rw [if_neg hedge] at hlower
    exact ofQuotient_beside hd hupper hlower hodd fun hlead hpos => absurd ⟨hlead, hpos⟩ hedge

theorem unit_eq : ∃ n, n = 1074 ∧ unit = 2 ^ n := by
  obtain ⟨n, hn⟩ : ∃ n, n = 1074 := ⟨_, rfl⟩
  refine ⟨n, hn, ?_⟩
  unfold unit
  rw [← hn, Nat.pow_eq]

theorem Finite.Catches.one_le {q : ℚ} (hs : x.significand ≠ 0) (h : x.Catches q) : 1 ≤ 2 * q := by
  have hone : (1 : ℚ) ≤ x.significand := by exact_mod_cast Nat.one_le_iff_ne_zero.mpr hs
  have hscale : (1 : ℚ) ≤ 2 ^ x.scale := one_le_pow₀ (by norm_num)
  have hbelow : x.below ≤ 1 := by
    unfold Finite.below
    split <;> norm_num
  have := h.lower
  nlinarith

theorem Finite.Catches.lt {q : ℚ} (h : x.Catches q) : 2 * q < 2 ^ (54 + 2045) := by
  obtain ⟨hsmall, hscale, -⟩ := x.normal
  have hs : (2 * x.significand + 1 : ℚ) < 2 ^ 54 := by
    have : 2 * x.significand + 1 < 2 ^ 54 := by
      unfold leadingBit at hsmall
      omega
    exact_mod_cast this
  calc 2 * q
    _ ≤ (2 * x.significand + 1) * 2 ^ x.scale := h.upper
    _ < 2 ^ 54 * 2 ^ x.scale := mul_lt_mul_of_pos_right hs (by positivity)
    _ ≤ 2 ^ 54 * 2 ^ 2045 := mul_le_mul_of_nonneg_left (pow_le_pow_right₀ (by norm_num) hscale) (by positivity)
    _ = 2 ^ (54 + 2045) := (pow_add _ _ _).symm

theorem tiny {digits : Nat} {exponent : Int} (hd : digits ≠ 0) (h : exponent < -400 - (Nat.log2 digits : Int)) :
    2 * ((digits : ℚ) * 10 ^ exponent * unit) < 1 := by
  obtain ⟨k, hk⟩ : ∃ k : Nat, exponent = -((401 + digits.log2 + k : Nat) : Int) :=
    ⟨(-exponent - 401 - digits.log2).toNat, by omega⟩
  obtain ⟨n, hn, hunit⟩ := unit_eq
  have hdigits : (digits : ℚ) < 2 ^ (digits.log2 + 1) := by exact_mod_cast Nat.lt_log2_self
  have hclear : 2 * ((digits : ℚ) * 10 ^ exponent * unit) =
      2 * digits * 2 ^ n / 10 ^ (401 + digits.log2 + k) := by
    rw [hunit, hk, zpow_neg, zpow_natCast]
    push_cast
    field_simp
  rw [hclear, div_lt_iff₀ (by positivity), one_mul]
  calc 2 * (digits : ℚ) * 2 ^ n
    _ < 2 * 2 ^ (digits.log2 + 1) * 2 ^ n := by gcongr
    _ = 2 ^ (1 + (digits.log2 + 1) + n) := by ring
    _ ≤ 2 ^ (3 * (401 + digits.log2 + k)) := pow_le_pow_right₀ (by norm_num) (by omega)
    _ = 8 ^ (401 + digits.log2 + k) := by rw [pow_mul]; norm_num
    _ ≤ 10 ^ (401 + digits.log2 + k) := by gcongr; norm_num

theorem huge {digits : Nat} {exponent : Int} (hd : digits ≠ 0) (h : 400 < exponent) :
    2 ^ (54 + 2045) ≤ 2 * ((digits : ℚ) * 10 ^ exponent * unit) := by
  obtain ⟨k, hk⟩ : ∃ k : Nat, exponent = ((401 + k : Nat) : Int) := ⟨(exponent - 401).toNat, by omega⟩
  obtain ⟨n, hn, hunit⟩ := unit_eq
  have hdigits : (1 : ℚ) ≤ digits := by exact_mod_cast Nat.one_le_iff_ne_zero.mpr hd
  rw [hunit, hk, zpow_natCast]
  push_cast
  calc (2 : ℚ) ^ (54 + 2045)
    _ ≤ 2 ^ (1 + 3 * (401 + k) + n) := pow_le_pow_right₀ (by norm_num) (by omega)
    _ = 2 * (1 * 8 ^ (401 + k) * 2 ^ n) := by
      rw [pow_add, pow_add, pow_mul, pow_one, one_mul, mul_assoc]
      norm_num
    _ ≤ 2 * (digits * 10 ^ (401 + k) * 2 ^ n) := by gcongr; norm_num

theorem ofDecimal_of_catches {digits : Nat} {exponent : Int} (hs : x.significand ≠ 0)
    (h : x.Catches (digits * 10 ^ exponent * unit)) : ofDecimal x.negative digits exponent = .finite x := by
  have hd : digits ≠ 0 := by
    rintro rfl
    have hone := h.one_le hs
    rw [Nat.cast_zero, zero_mul, zero_mul, mul_zero] at hone
    exact absurd hone (by norm_num)
  have hnotTiny : ¬ exponent < -400 - (Nat.log2 digits : Int) := fun htiny =>
    absurd (tiny hd htiny) (not_lt.mpr (h.one_le hs))
  have hnotHuge : ¬ 400 < exponent := fun hhuge => absurd h.lt (not_lt.mpr (huge hd hhuge))
  unfold ofDecimal
  rw [if_neg hd, if_neg hnotTiny, if_neg hnotHuge]
  split
  · rename_i hneg
    obtain ⟨k, rfl⟩ : ∃ k : Nat, exponent = -(k : Int) := ⟨exponent.natAbs, by omega⟩
    apply ofQuotient_of_catches (Nat.pow_pos (by decide))
    convert h using 1
    rw [Int.natAbs_neg, Int.natAbs_natCast, zpow_neg, zpow_natCast]
    generalize unit = u
    push_cast
    field_simp
  · rename_i hneg
    obtain ⟨k, rfl⟩ : ∃ k : Nat, exponent = (k : Int) := ⟨exponent.natAbs, by omega⟩
    apply ofQuotient_of_catches Nat.one_pos
    convert h using 1
    rw [Int.natAbs_natCast, zpow_natCast, Nat.pow_eq]
    push_cast
    ring

end Double

end Playpen
