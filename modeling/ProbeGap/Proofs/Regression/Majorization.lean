import Mathlib.Tactic.LinearCombination
import ProbeGap.Proofs.Regression.LeastSquares
import ProbeGap.Regression.Robust

/-!
# A round never makes the objective worse

Read with rational numbers, a round of the robust fit lowers the objective, or leaves it as it is,
as long as the scale is held fixed. Two facts make this so.

The weight of a residual is chosen such that a parabola with that weight touches the loss of Huber
at the residual and is nowhere below it (`huberLoss_le_parabola`). Summed over the points, the
objective at any line is at most that at the present line, plus half the change of the weighted
squared residuals in units of the scale (`huberDeviance_le`).

And least squares are least (`squaredResiduals_centredLine_le`), so that change is not positive for
the line a round finds (`huberDeviance_reweighted_le`).
-/

namespace ProbeGap

/-! ## §1. The parabola above the loss -/

section

variable {z t : Rat}

theorem huberLoss_of_le (h : |z| ≤ t) : huberLoss z t = z * z / 2 := by
  unfold huberLoss
  simp only [Scalar.abs_exact, Scalar.half_exact]
  rw [if_pos h]
  linear_combination (1 / 2 : Rat) * abs_mul_abs_self z

theorem huberLoss_of_lt (h : t < |z|) : huberLoss z t = t * |z| - t * t / 2 := by
  unfold huberLoss
  simp only [Scalar.abs_exact, Scalar.half_exact]
  rw [if_neg (not_le.mpr h)]
  ring

theorem huberWeight_of_le (h : |z| ≤ t) : huberWeight z t = 1 := by
  unfold huberWeight
  simp only [Scalar.abs_exact, Scalar.one_exact]
  exact if_pos h

theorem huberWeight_of_lt (h : t < |z|) : huberWeight z t = t / |z| := by
  unfold huberWeight
  simp only [Scalar.abs_exact]
  exact if_neg (not_le.mpr h)

/-- The loss is quadratic or less. -/
theorem huberLoss_le_half_sq (t z : Rat) : huberLoss z t ≤ z * z / 2 := by
  by_cases h : |z| ≤ t
  · rw [huberLoss_of_le h]
  · rw [huberLoss_of_lt (not_le.mp h)]
    have hsquare : 0 ≤ (|z| - t) * (|z| - t) := mul_self_nonneg _
    have habs := abs_mul_abs_self z
    linarith

/-- The parabola that has the weight of a residual touches the loss there and is nowhere
below it. -/
theorem huberLoss_le_parabola (ht : 0 ≤ t) (z z' : Rat) :
    huberLoss z' t ≤ huberLoss z t + huberWeight z t * (z' * z' - z * z) / 2 := by
  have hz := abs_mul_abs_self z
  have hz' := abs_mul_abs_self z'
  by_cases h : |z| ≤ t
  · rw [huberLoss_of_le h, huberWeight_of_le h]
    have hle := huberLoss_le_half_sq t z'
    linarith
  · -- Beyond the threshold the weight `q` is below one, and `q * |z|` is the threshold.
    have hlt : t < |z| := not_le.mp h
    have hpos : 0 < |z| := lt_of_le_of_lt ht hlt
    rw [huberLoss_of_lt hlt, huberWeight_of_lt hlt]
    generalize hq : t / |z| = q
    have htq : t = q * |z| := by
      rw [← hq, div_mul_cancel₀ _ (ne_of_gt hpos)]
    have hnonneg : 0 ≤ q := by
      rw [← hq]
      exact div_nonneg ht (le_of_lt hpos)
    have hsmall : q ≤ 1 := by
      rw [← hq]
      exact (div_le_one hpos).mpr (le_of_lt hlt)
    by_cases h' : |z'| ≤ t
    · have hbelow : |z'| * |z'| ≤ q * |z| * |z| := by
        have hreach : |z'| ≤ |z| := h'.trans (le_of_lt hlt)
        rw [← htq]
        exact mul_le_mul h' hreach (abs_nonneg z') ht
      have hgap : 0 ≤ (1 - q) * (q * |z| * |z| - |z'| * |z'|) :=
        mul_nonneg (sub_nonneg.mpr hsmall) (sub_nonneg.mpr hbelow)
      rw [huberLoss_of_le h', ← hz, ← hz', htq]
      linarith
    · have hgap : 0 ≤ q * ((|z'| - |z|) * (|z'| - |z|)) :=
        mul_nonneg hnonneg (mul_self_nonneg _)
      rw [huberLoss_of_lt (not_le.mp h'), ← hz, ← hz', htq]
      linarith

end

/-! ## §2. The objective -/

section

variable (points : List (Point Rat)) (scale : Rat) {t : Rat}

theorem huberDeviance_residuals (l : Line Rat) :
    huberDeviance (l.residuals points) scale t =
      (points.map fun p => huberLoss (l.residual p / scale) t).sum := by
  unfold huberDeviance Line.residuals
  rw [Scalar.sum_exact, List.map_map]
  rfl

theorem squaredResiduals_huberWeights (line l : Line Rat) :
    squaredResiduals points (huberWeights (line.residuals points) scale t) l =
      (points.map fun p =>
        huberWeight (line.residual p / scale) t * (l.residual p * l.residual p)).sum := by
  unfold squaredResiduals weighted huberWeights Line.residuals
  rw [List.map_map, ← List.map_prod_left_eq_zip, List.map_map]
  rfl

/-- The objective at another line is at most the present one and half of what the weighted
squared residuals grow by, in units of the scale. -/
theorem huberDeviance_le (ht : 0 ≤ t) (line next : Line Rat) :
    huberDeviance (next.residuals points) scale t ≤
      huberDeviance (line.residuals points) scale t +
        (squaredResiduals points (huberWeights (line.residuals points) scale t) next -
          squaredResiduals points (huberWeights (line.residuals points) scale t) line)
            / (2 * (scale * scale)) := by
  rw [huberDeviance_residuals, huberDeviance_residuals, squaredResiduals_huberWeights,
    squaredResiduals_huberWeights]
  induction points with
  | nil =>
    simp only [List.map_nil, List.sum_nil]
    rw [sub_self, zero_div, add_zero]
  | cons p points ih =>
    have hpoint := huberLoss_le_parabola ht (line.residual p / scale) (next.residual p / scale)
    have hscaled : huberWeight (line.residual p / scale) t
          * (next.residual p / scale * (next.residual p / scale)
            - line.residual p / scale * (line.residual p / scale)) / 2 =
        (huberWeight (line.residual p / scale) t * (next.residual p * next.residual p)
          - huberWeight (line.residual p / scale) t * (line.residual p * line.residual p))
            / (2 * (scale * scale)) := by
      ring
    rw [hscaled] at hpoint
    simp only [List.map_cons, List.sum_cons]
    rw [add_sub_add_comm, add_div]
    linarith

/-- The line that a round finds has the least squared residuals under the weights of the line it
started from. -/
theorem squaredResiduals_reweighted_le {line next : Line Rat}
    (h : reweighted points line scale t = .ok next) :
    squaredResiduals points (huberWeights (line.residuals points) scale t) next ≤
      squaredResiduals points (huberWeights (line.residuals points) scale t) line := by
  have hlength : (huberWeights (line.residuals points) scale t).length = points.length := by
    unfold huberWeights Line.residuals
    rw [List.length_map, List.length_map]
  unfold reweighted at h
  rw [weightedLeastSquares_exact] at h
  split at h
  · next hspread =>
    cases h
    exact squaredResiduals_centredLine_le hspread hlength line
  · cases h

end

/-- The line that a round finds has no greater objective than the line it started from, where both
are measured in one scale. -/
theorem huberDeviance_reweighted_le (points : List (Point Rat)) (line next : Line Rat)
    (scale threshold : Rat) (hthreshold : 0 ≤ threshold)
    (h : reweighted points line scale threshold = .ok next) :
    huberDeviance (next.residuals points) scale threshold ≤
      huberDeviance (line.residuals points) scale threshold := by
  have hmajor := huberDeviance_le points scale hthreshold line next
  have hleast := squaredResiduals_reweighted_le points scale h
  have hchange : (squaredResiduals points (huberWeights (line.residuals points) scale threshold)
        next
      - squaredResiduals points (huberWeights (line.residuals points) scale threshold) line)
        / (2 * (scale * scale)) ≤ 0 :=
    div_nonpos_of_nonpos_of_nonneg (sub_nonpos.mpr hleast)
      (mul_nonneg zero_le_two (mul_self_nonneg scale))
  linarith

/-- Five points, one of which is far off the line of the others. -/
def oneOutlier : List (Point Rat) :=
  [⟨1, 1⟩, ⟨2, 2⟩, ⟨3, 12⟩, ⟨4, 5⟩, ⟨5, 5⟩]

/-- From the flat line through the origin a round finds another line, with a smaller objective. -/
theorem huberDeviance_of_oneOutlier :
    ∃ next, reweighted oneOutlier ⟨0, 0⟩ 2 1 = .ok next ∧ next ≠ ⟨0, 0⟩ ∧
      huberDeviance (next.residuals oneOutlier) 2 1 ≤
        huberDeviance (Line.residuals ⟨0, 0⟩ oneOutlier) 2 1 := by
  have hview : (reweighted oneOutlier ⟨0, 0⟩ 2 1).toOption.map
      (fun next => decide (next ≠ ⟨0, 0⟩)) = some true := by
    decide +kernel
  obtain ⟨next, hnext, hmoved⟩ := exists_ok_of_view hview
  exact ⟨next, hnext, of_decide_eq_true hmoved,
    huberDeviance_reweighted_le oneOutlier ⟨0, 0⟩ next 2 1 (by decide) hnext⟩

end ProbeGap
