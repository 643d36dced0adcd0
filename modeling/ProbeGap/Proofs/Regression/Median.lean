import ProbeGap.Proofs.Numeric.Exact
import ProbeGap.Proofs.Numeric.Order
import ProbeGap.Proofs.Sorting
import ProbeGap.Regression.Robust

/-!
# The median does not see an order

A median is read off the sorted values. Scalars are sorted by an order that tells all of them
apart, doubles by their bit patterns and rational numbers by size, so there is only one way to
sort a list, however it was ordered before (`Scalar.sort_eq_of_perm`). The median and the scale of
residuals are the same then.
-/

namespace ProbeGap

/-- The order that scalars are sorted in is linear. -/
class Scalar.SortsOneWay (α : Type) [Scalar α] : Prop where
  total : ∀ a b : α, Scalar.totalLe a b = true ∨ Scalar.totalLe b a = true
  trans : ∀ a b c : α, Scalar.totalLe a b = true → Scalar.totalLe b c = true →
    Scalar.totalLe a c = true
  antisymm : ∀ a b : α, Scalar.totalLe a b = true → Scalar.totalLe b a = true → a = b

instance : Scalar.SortsOneWay Float where
  total := totalLe_total
  trans := totalLe_trans
  antisymm _ _ := eq_of_totalLe

instance : Scalar.SortsOneWay Rat where
  total a b := by
    simp only [Scalar.totalLe, decide_eq_true_eq]
    exact le_total a b
  trans a b c := by
    simp only [Scalar.totalLe, decide_eq_true_eq]
    exact le_trans
  antisymm a b := by
    simp only [Scalar.totalLe, decide_eq_true_eq]
    exact le_antisymm

variable {α : Type} [Scalar α] [Scalar.SortsOneWay α] {xs ys : List α}

theorem Scalar.sort_eq_of_perm (h : xs.Perm ys) : Scalar.sort xs = Scalar.sort ys :=
  sortBy_eq_of_perm SortsOneWay.total SortsOneWay.trans
    (fun a _ b _ => SortsOneWay.antisymm a b) h

theorem median_eq_of_perm (h : xs.Perm ys) : median xs = median ys := by
  unfold median
  rw [Scalar.sort_eq_of_perm h]

theorem medianScale_eq_of_perm (h : xs.Perm ys) : medianScale xs = medianScale ys := by
  unfold medianScale
  rw [median_eq_of_perm (h.map Scalar.abs)]

end ProbeGap
