import Mathlib.Algebra.Order.Floor.Ring
import Mathlib.Data.Rat.Floor
import Playpen.Number.Seconds

namespace Playpen

namespace Rational

def nearest (q : ℚ) : Double := Double.ofQuotient (decide (q < 0)) (q.num.natAbs * Double.unit) q.den

end Rational

instance : Seconds ℚ where
  zero := 0
  ofNat n := n
  add x y := x + y
  sub x y := x - y
  le x y := decide (x ≤ y)
  divNat x n := x / n
  truncate x := .ok (x.num.tdiv x.den)
  millis x := .ok ⌈x * 1000⌉
  general x := (Rational.nearest x).general
  fixed places x := (Rational.nearest x).fixed places

namespace Seconds

theorem lt_iff (x y : ℚ) : Seconds.lt x y = true ↔ x < y := by
  show (decide (x ≤ y) && !decide (y ≤ x)) = true ↔ x < y
  simp only [Bool.and_eq_true, Bool.not_eq_true', decide_eq_true_eq, decide_eq_false_iff_not, not_le]
  exact ⟨fun h => h.2, fun h => ⟨h.le, h⟩⟩

theorem min_eq (x y : ℚ) : Seconds.min x y = Min.min x y := by
  unfold Seconds.min
  rcases lt_or_ge y x with h | h
  · rw [if_pos ((lt_iff y x).mpr h), min_eq_right h.le]
  · rw [if_neg (mt (lt_iff y x).mp h.not_gt), min_eq_left h]

theorem max_eq (x y : ℚ) : Seconds.max x y = Max.max x y := by
  unfold Seconds.max
  rcases lt_or_ge x y with h | h
  · rw [if_pos ((lt_iff x y).mpr h), max_eq_right h.le]
  · rw [if_neg (mt (lt_iff x y).mp h.not_gt), max_eq_left h]

theorem total_eq (xs : List ℚ) : total xs = xs.sum := List.sum_eq_foldl.symm

end Seconds

end Playpen
