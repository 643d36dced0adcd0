import Mathlib.Algebra.Order.BigOperators.Group.List
import Mathlib.Algebra.Order.Ring.Rat
import Mathlib.Tactic.Linarith
import ProbeGap.Numeric.Scalar

/-!
# The exact reading

Read with rational numbers, the operations of the estimation core are those of an ordered
field, and the notions that are derived from them are the usual ones: magnitude, maximum and
sum of a list. Each lemma here turns one of them into its usual form. No scalar is out of the
range of numbers, and a greatest value is not below the start of the search for it.
-/

namespace ProbeGap.Scalar

/-! ## §1. Notions of the core -/

@[simp] theorem zero_exact : (zero : Rat) = 0 := rfl

@[simp] theorem one_exact : (one : Rat) = 1 := rfl

@[simp] theorem half_exact : (half : Rat) = 1 / 2 := rfl

@[simp] theorem isFinite_exact (x : Rat) : isFinite x = true := rfl

@[simp] theorem abs_exact (x : Rat) : abs x = |x| := by
  show Rat.abs x = |x|
  unfold Rat.abs
  by_cases h : 0 ≤ x
  · rw [if_pos h, abs_of_nonneg h]
  · rw [if_neg h, abs_of_neg (not_le.mp h)]

@[simp] theorem larger_exact (x y : Rat) : larger x y = max x y := by
  unfold larger
  by_cases h : x < y
  · rw [if_pos h, max_eq_right (le_of_lt h)]
  · rw [if_neg h, if_pos (le_refl x), max_eq_left (not_lt.mp h)]

@[simp] theorem equal_exact (x y : Rat) : equal x y = true ↔ x = y := by
  unfold equal
  rw [Bool.and_eq_true_iff, decide_eq_true_iff, decide_eq_true_iff]
  exact le_antisymm_iff.symm

@[simp] theorem sum_exact (xs : List Rat) : sum xs = xs.sum := by
  unfold sum
  exact List.sum_eq_foldl.symm

/-! ## §2. Bounds -/

theorem rootEpsilon_pos : (0 : Rat) < rootEpsilon := by
  show (0 : Rat) < 1 / 67108864
  norm_num

/-- The greatest of some values and a start is not below the start. -/
theorem le_foldl_larger {β : Type} (f : β → Rat) (xs : List β) (start : Rat) :
    start ≤ xs.foldl (fun m x => larger m (f x)) start := by
  induction xs generalizing start with
  | nil => exact le_refl start
  | cons x xs ih =>
    have hfirst : start ≤ larger start (f x) := by
      rw [larger_exact]
      exact le_max_left start (f x)
    exact hfirst.trans (ih _)

end ProbeGap.Scalar
