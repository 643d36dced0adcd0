import Mathlib.Algebra.BigOperators.Ring.List
import Mathlib.Tactic.FieldSimp
import Mathlib.Tactic.Ring
import ProbeGap.Proofs.Numeric.Exact
import ProbeGap.Proofs.Regression.Design
import ProbeGap.Proofs.Regression.Solutions

/-!
# Fits in the exact reading

Read with rational numbers, weighted least squares divides only by a total weight and a spread
that are positive, and fails in no other way than for lack of spread (`weightedLeastSquares_exact`).
Points on a line have that line as their solution, whatever their weights (`centredLine_eq`).
So for points on a line the plain fit finds the line or lacks spread, and as the line passes
through all points the robust fit does the same (`Estimator.fit_of_line`).

A spread is usable if it is above the rounding noise of the greatest `x`. A usable spread takes
two distinct values of `x`, so the check of the design asks for nothing more
(`checkDesign_of_hasSpread`).
-/

namespace ProbeGap

/-! ## §1. Weighted sums -/

/-- The weighted sum of the values of a function at points. -/
def weighted (pairs : List (Point Rat × Rat)) (f : Point Rat → Rat) : Rat :=
  (pairs.map fun pw => pw.2 * f pw.1).sum

section

variable {pairs : List (Point Rat × Rat)} {f g : Point Rat → Rat}

theorem weightedSum_eq_weighted :
    weightedSum pairs (fun p w => w * f p) = weighted pairs f := by
  unfold weightedSum weighted
  rw [List.sum_eq_foldl, List.foldl_map]
  rfl

theorem weightedSum_mul_eq_weighted :
    weightedSum pairs (fun p w => w * f p * g p) = weighted pairs fun p => f p * g p := by
  rw [← weightedSum_eq_weighted]
  simp only [mul_assoc]

theorem weighted_congr (h : ∀ pw ∈ pairs, f pw.1 = g pw.1) :
    weighted pairs f = weighted pairs g := by
  unfold weighted
  congr 1
  apply List.map_congr_left
  intro pw hpw
  rw [h pw hpw]

theorem weighted_add :
    weighted pairs (fun p => f p + g p) = weighted pairs f + weighted pairs g := by
  unfold weighted
  rw [← List.sum_map_add]
  congr 1
  apply List.map_congr_left
  intro pw _
  exact mul_add _ _ _

theorem weighted_mul_left (c : Rat) : weighted pairs (fun p => c * f p) = c * weighted pairs f := by
  unfold weighted
  rw [← List.sum_map_mul_left]
  congr 1
  apply List.map_congr_left
  intro pw _
  exact mul_left_comm _ _ _

end

theorem weighted_one {points : List (Point Rat)} {weights : List Rat}
    (hlength : weights.length = points.length) :
    weighted (points.zip weights) (fun _ => 1) = weights.sum := by
  unfold weighted
  simp only [mul_one]
  rw [show (fun pw : Point Rat × Rat => pw.2) = Prod.snd from rfl,
    List.map_snd_zip (le_of_eq hlength)]

theorem weighted_const {points : List (Point Rat)} {weights : List Rat}
    (hlength : weights.length = points.length) (c : Rat) :
    weighted (points.zip weights) (fun _ => c) = c * weights.sum := by
  rw [← weighted_one hlength, ← weighted_mul_left]
  simp only [mul_one]

/-! ## §2. Least squares -/

section

variable (points : List (Point Rat)) (weights : List Rat)

/-- The weighted mean of a function of the points. -/
def weightedMean (f : Point Rat → Rat) : Rat :=
  weighted (points.zip weights) f / weights.sum

/-- The weighted spread of `x` about its mean. -/
def spread : Rat :=
  weighted (points.zip weights) fun p =>
    (p.x - weightedMean points weights (·.x)) * (p.x - weightedMean points weights (·.x))

/-- How `x` and `y` spread together about their means. -/
def jointSpread : Rat :=
  weighted (points.zip weights) fun p =>
    (p.x - weightedMean points weights (·.x)) * (p.y - weightedMean points weights (·.y))

/-- The weights do not vanish, and the spread of `x` is above the rounding noise of the
greatest `x`. -/
def HasSpread : Prop :=
  0 < weights.sum ∧
    (Scalar.epsilon * reach points) * (Scalar.epsilon * reach points) * weights.sum <
      spread points weights

instance : Decidable (HasSpread points weights) :=
  inferInstanceAs (Decidable (_ ∧ _))

/-- The line through the means whose slope is the share of the joint spread. -/
def centredLine : Line Rat where
  intercept := weightedMean points weights (·.y) -
    jointSpread points weights / spread points weights * weightedMean points weights (·.x)
  slope := jointSpread points weights / spread points weights

/-- Least squares fail for lack of spread only. -/
theorem weightedLeastSquares_exact :
    weightedLeastSquares points weights =
      if HasSpread points weights then .ok (centredLine points weights)
      else .error .singular := by
  -- All coefficients are finite, so the last of the three checks is void.
  have hchecks : weightedLeastSquares points weights =
      if ¬ 0 < weights.sum then .error .singular
      else if ¬ (Scalar.epsilon * reach points) * (Scalar.epsilon * reach points) * weights.sum <
          spread points weights then .error .singular
      else .ok (centredLine points weights) := by
    unfold weightedLeastSquares
    simp only [Scalar.sum_exact, Scalar.zero_exact, weightedSum_eq_weighted,
      weightedSum_mul_eq_weighted, Scalar.isFinite_exact]
    rfl
  rw [hchecks]
  by_cases htotal : 0 < weights.sum
  · rw [if_neg (not_not_intro htotal)]
    by_cases hnoise : (Scalar.epsilon * reach points) * (Scalar.epsilon * reach points)
        * weights.sum < spread points weights
    · have hspread : HasSpread points weights := ⟨htotal, hnoise⟩
      rw [if_neg (not_not_intro hnoise), if_pos hspread]
    · have hspread : ¬ HasSpread points weights := fun h => hnoise h.2
      rw [if_pos hnoise, if_neg hspread]
  · have hspread : ¬ HasSpread points weights := fun h => htotal h.1
    rw [if_pos htotal, if_neg hspread]

end

section

variable {points : List (Point Rat)} {weights : List Rat}

/-- A usable spread is positive. -/
theorem HasSpread.spread_pos (h : HasSpread points weights) : 0 < spread points weights := by
  have hnoise : 0 ≤ (Scalar.epsilon * reach points) * (Scalar.epsilon * reach points)
      * weights.sum :=
    mul_nonneg (mul_self_nonneg _) (le_of_lt h.1)
  exact lt_of_le_of_lt hnoise h.2

/-- Where all points have the same `x`, there is no spread. -/
theorem spread_eq_zero {x : Rat} (htotal : 0 < weights.sum)
    (hlength : weights.length = points.length) (hx : ∀ p ∈ points, p.x = x) :
    spread points weights = 0 := by
  have hsame : ∀ pw ∈ points.zip weights, pw.1.x = x :=
    fun pw hpw => hx pw.1 (List.of_mem_zip hpw).1
  have hmean : weightedMean points weights (·.x) = x := by
    unfold weightedMean
    rw [weighted_congr (g := fun _ => x) hsame, weighted_const hlength]
    exact mul_div_cancel_right₀ x (ne_of_gt htotal)
  have hdeviation : ∀ pw ∈ points.zip weights, (pw.1.x - x) * (pw.1.x - x) = 0 := by
    intro pw hpw
    rw [hsame pw hpw, sub_self, zero_mul]
  unfold spread
  rw [hmean, weighted_congr (g := fun _ => 0) hdeviation, weighted_const hlength, zero_mul]

/-- The line through the means, for points on a line, is that line. -/
theorem centredLine_eq {l : Line Rat} (h : HasSpread points weights)
    (hlength : weights.length = points.length)
    (hline : ∀ p ∈ points, p.y = l.intercept + l.slope * p.x) :
    centredLine points weights = l := by
  have hon : ∀ pw ∈ points.zip weights, pw.1.y = l.intercept + l.slope * pw.1.x :=
    fun pw hpw => hline pw.1 (List.of_mem_zip hpw).1
  have htotal : weights.sum ≠ 0 := ne_of_gt h.1
  have hspread : spread points weights ≠ 0 := ne_of_gt h.spread_pos
  -- The means lie on the line, too, so `y` deviates from its mean as `x` does, times the slope.
  have hmean : weightedMean points weights (·.y)
      = l.intercept + l.slope * weightedMean points weights (·.x) := by
    unfold weightedMean
    rw [weighted_congr (g := fun p => l.intercept + l.slope * p.x) hon, weighted_add,
      weighted_const hlength, weighted_mul_left]
    field_simp
  have hjoint : jointSpread points weights = l.slope * spread points weights := by
    unfold jointSpread spread
    rw [← weighted_mul_left]
    apply weighted_congr
    intro pw hpw
    rw [hon pw hpw, hmean]
    ring
  have hslope : jointSpread points weights / spread points weights = l.slope := by
    rw [hjoint, mul_div_cancel_right₀ _ hspread]
  unfold centredLine
  rw [hslope, hmean, add_sub_cancel_right]

end

/-! ## §3. The design -/

section

variable {points : List (Point Rat)} {weights : List Rat}

/-- Fewer than two distinct values of `x` are a single one. -/
theorem same_of_distinctCount_lt (h : distinctCount points < 2) :
    ∃ x, ∀ p ∈ points, p.x = x := by
  by_cases hne : points = []
  · refine ⟨0, fun p hp => ?_⟩
    rw [hne] at hp
    cases hp
  · have hself : ∀ p ∈ points, Scalar.equal p.x p.x = true :=
      fun p _ => (Scalar.equal_exact p.x p.x).mpr rfl
    obtain ⟨p, -, hall⟩ := exists_same_of_distinctCount_lt hne hself h
    exact ⟨p.x, fun q hq => ((Scalar.equal_exact p.x q.x).mp (hall q hq)).symm⟩

/-- A usable spread passes the check of the design. -/
theorem checkDesign_of_hasSpread (h : HasSpread points weights)
    (hlength : weights.length = points.length) : checkDesign points = .ok () := by
  have hdistinct : ¬ distinctCount points < 2 := by
    intro hfew
    obtain ⟨x, hx⟩ := same_of_distinctCount_lt hfew
    have hpos := h.spread_pos
    rw [spread_eq_zero h.1 hlength hx] at hpos
    exact lt_irrefl 0 hpos
  have hnonempty : points.isEmpty ≠ true := by
    intro hempty
    apply hdistinct
    rw [List.isEmpty_iff.mp hempty]
    decide
  unfold checkDesign
  rw [if_neg hnonempty, if_neg hdistinct]

end

/-! ## §4. Fits -/

section

variable {points : List (Point Rat)}

@[simp] theorem length_unitWeights : (unitWeights points).length = points.length :=
  List.length_map _

/-- Without a usable spread there is no fit. -/
theorem plainFit_of_not_hasSpread (h : ¬ HasSpread points (unitWeights points)) :
    ∃ cause, (cause = .empty ∨ cause = .insufficientSpread 1 ∨ cause = .singular) ∧
      plainFit points = .error cause := by
  unfold plainFit
  rw [weightedLeastSquares_exact, if_neg h]
  cases hcheck : checkDesign points with
  | ok _ => exact ⟨.singular, Or.inr (Or.inr rfl), rfl⟩
  | error cause =>
    refine ⟨cause, ?_, rfl⟩
    rcases checkDesign_eq_error hcheck with rfl | rfl
    · exact Or.inl rfl
    · exact Or.inr (Or.inl rfl)

section

variable {l : Line Rat} (hline : ∀ p ∈ points, p.y = l.intercept + l.slope * p.x)
include hline

/-- With a usable spread the fit of points on a line is the line. -/
theorem plainFit_of_hasSpread (h : HasSpread points (unitWeights points)) :
    plainFit points = .ok { l with iterations := 1 } := by
  unfold plainFit
  rw [checkDesign_of_hasSpread h length_unitWeights, weightedLeastSquares_exact, if_pos h,
    centredLine_eq h length_unitWeights hline]
  rfl

/-- All points lie on a line without residuals. -/
theorem isExact_of_line : l.isExact points = true := by
  have hthreshold : 0 ≤ exactFitThreshold points := by
    have hfold := Scalar.le_foldl_larger (fun p : Point Rat => Scalar.abs p.y) points Scalar.one
    have hone : (0 : Rat) ≤ Scalar.one := by
      rw [Scalar.one_exact]
      exact zero_le_one
    exact mul_nonneg (le_of_lt Scalar.rootEpsilon_pos) (hone.trans hfold)
  unfold Line.isExact isExactFit
  rw [List.all_eq_true]
  intro r hr
  obtain ⟨p, hp, rfl⟩ := List.mem_map.mp hr
  have hzero : l.residual p = 0 := by
    unfold Line.residual
    rw [hline p hp]
    exact sub_self _
  rw [decide_eq_true_iff, hzero, Scalar.abs_exact, abs_zero]
  exact hthreshold

/-- For points on a line either method, under any options, is the plain fit. -/
theorem Estimator.fit_of_line (e : Estimator Rat) : e.fit points = plainFit points := by
  apply e.fit_eq_plainFit
  intro fit hfit
  by_cases h : HasSpread points (unitWeights points)
  · rw [plainFit_of_hasSpread hline h] at hfit
    cases hfit
    exact isExact_of_line hline
  · obtain ⟨cause, -, herror⟩ := plainFit_of_not_hasSpread h
    rw [herror] at hfit
    cases hfit

end

end

end ProbeGap
