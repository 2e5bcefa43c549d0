/-
  Exponential smoothing over an ordered field: a running mean and a running absolute deviation.

  `smooth α x prev` moves `prev` a fraction `α` towards `x`.  `track` smooths a mean and, with the
  deviation from the mean BEFORE the step, a mean absolute deviation.  Two facts are used:
  smoothing stays inside any interval (`smooth_mem_Icc`), and on a constant input both components
  have a closed form (`iterate_track`) — the error of the mean decays geometrically, the deviation
  first grows by that error and then decays with it.
-/
import Mathlib.Algebra.Order.Field.Basic
import Mathlib.Algebra.Order.Ring.Abs
import Mathlib.Order.Interval.Set.Basic
import Mathlib.Tactic.FieldSimp
import Mathlib.Tactic.Linarith
import Mathlib.Tactic.Ring

namespace Smoothing

variable {K : Type} [Field K] [LinearOrder K] [IsStrictOrderedRing K]

/-- One smoothing step. -/
def smooth (α x prev : K) : K := α * x + (1 - α) * prev

/-- Mean and mean absolute deviation, smoothed together. -/
def track (α x : K) (md : K × K) : K × K := (smooth α x md.1, smooth α |x - md.1| md.2)

theorem smooth_mem_Icc {α x prev a b : K} (h0 : 0 ≤ α) (h1 : α ≤ 1) (hx : x ∈ Set.Icc a b)
    (hp : prev ∈ Set.Icc a b) : smooth α x prev ∈ Set.Icc a b := by
  have h1' : 0 ≤ 1 - α := by linarith
  have hlo : α * a + (1 - α) * a ≤ α * x + (1 - α) * prev :=
    add_le_add (mul_le_mul_of_nonneg_left hx.1 h0) (mul_le_mul_of_nonneg_left hp.1 h1')
  have hhi : α * x + (1 - α) * prev ≤ α * b + (1 - α) * b :=
    add_le_add (mul_le_mul_of_nonneg_left hx.2 h0) (mul_le_mul_of_nonneg_left hp.2 h1')
  constructor
  · calc a = α * a + (1 - α) * a := by ring
      _ ≤ smooth α x prev := hlo
  · calc smooth α x prev ≤ α * b + (1 - α) * b := hhi
      _ = b := by ring

/-- Inputs and mean inside an interval keep the deviation below its width. -/
theorem track_mem {α x w : K} (h0 : 0 ≤ α) (h1 : α ≤ 1) (hx : x ∈ Set.Icc 0 w) {md : K × K}
    (hm : md.1 ∈ Set.Icc 0 w) (hd : md.2 ∈ Set.Icc 0 w) :
    (track α x md).1 ∈ Set.Icc 0 w ∧ (track α x md).2 ∈ Set.Icc 0 w := by
  refine ⟨smooth_mem_Icc h0 h1 hx hm, smooth_mem_Icc h0 h1 ⟨abs_nonneg _, ?_⟩ hd⟩
  rw [abs_le]
  exact ⟨by linarith [hx.1, hm.2], by linarith [hx.2, hm.1]⟩

/-- **The closed form on a constant input.** -/
theorem iterate_track {α : K} (x m d : K) (h1 : α < 1) :
    ∀ k : ℕ, (track α x)^[k] (m, d) =
      (x - (1 - α) ^ k * (x - m), (1 - α) ^ k * (d + k * (α / (1 - α)) * |x - m|))
  | 0 => by simp
  | k + 1 => by
    have hpos : 0 < 1 - α := by linarith
    have herr : |x - (x - (1 - α) ^ k * (x - m))| = (1 - α) ^ k * |x - m| := by
      rw [sub_sub_cancel, abs_mul, abs_of_pos (pow_pos hpos k)]
    rw [Function.iterate_succ_apply', iterate_track x m d h1 k]
    refine Prod.ext ?_ ?_
    · show smooth α x (x - (1 - α) ^ k * (x - m)) = x - (1 - α) ^ (k + 1) * (x - m)
      rw [smooth]
      ring
    · show smooth α |x - (x - (1 - α) ^ k * (x - m))|
          ((1 - α) ^ k * (d + k * (α / (1 - α)) * |x - m|)) = _
      rw [herr, smooth]
      push_cast
      field_simp
      ring

end Smoothing
