import ProbeGap.Proofs.Fallible
import ProbeGap.Proofs.Regression.Correspondence
import ProbeGap.Proofs.Regression.Exact

/-!
# Estimates do not depend on the order of the samples

Read with rational numbers, the estimation of a link gives the same for its samples in any order.
Every weight that a fit uses is the weight of a point: it is one, or it is computed from the
residual of the point. So points that change places take their weights along, and the weighted
sums that least squares are made of keep their value (`weightedLeastSquares_eq_of_perm`). What else
a round looks at are a greatest magnitude, the scale and the objective, none of which depends on
an order. So lists with the same points correspond, with each line corresponding to itself
(`corresponds_of_perm`).
-/

namespace ProbeGap

/-! ## §1. Weighted sums -/

/-- A greatest value does not depend on the order in which it is searched for. -/
theorem Scalar.foldl_larger_eq_of_perm {β : Type} (f : β → Rat) {xs ys : List β}
    (h : xs.Perm ys) (start : Rat) :
    xs.foldl (fun m x => Scalar.larger m (f x)) start =
      ys.foldl (fun m x => Scalar.larger m (f x)) start := by
  apply h.foldl_eq'
  intro x _ y _ m
  simp only [Scalar.larger_exact]
  exact max_right_comm m (f x) (f y)

section

variable {points others : List (Point Rat)} (h : others.Perm points) (weight : Point Rat → Rat)
include h

/-- Points take their weights along. -/
theorem weighted_eq_of_perm (f : Point Rat → Rat) :
    weighted (others.zip (others.map weight)) f =
      weighted (points.zip (points.map weight)) f := by
  unfold weighted
  rw [← List.map_prod_left_eq_zip, ← List.map_prod_left_eq_zip]
  exact ((h.map _).map _).sum_eq

theorem weightedMean_eq_of_perm (f : Point Rat → Rat) :
    weightedMean others (others.map weight) f = weightedMean points (points.map weight) f := by
  unfold weightedMean
  rw [weighted_eq_of_perm h, (h.map weight).sum_eq]

theorem spread_eq_of_perm :
    spread others (others.map weight) = spread points (points.map weight) := by
  unfold spread
  rw [weightedMean_eq_of_perm h, weighted_eq_of_perm h]

theorem centredLine_eq_of_perm :
    centredLine others (others.map weight) = centredLine points (points.map weight) := by
  have hjoint : jointSpread others (others.map weight) =
      jointSpread points (points.map weight) := by
    unfold jointSpread
    rw [weightedMean_eq_of_perm h, weightedMean_eq_of_perm h, weighted_eq_of_perm h]
  unfold centredLine
  rw [hjoint, spread_eq_of_perm h, weightedMean_eq_of_perm h, weightedMean_eq_of_perm h]

theorem hasSpread_iff_of_perm :
    HasSpread others (others.map weight) ↔ HasSpread points (points.map weight) := by
  have hreach : reach others = reach points :=
    Scalar.foldl_larger_eq_of_perm (fun p : Point Rat => Scalar.abs p.x) h Scalar.zero
  unfold HasSpread
  rw [hreach, spread_eq_of_perm h, (h.map weight).sum_eq]

/-- Least squares do not depend on the order of the points, if each keeps its weight. -/
theorem weightedLeastSquares_eq_of_perm :
    weightedLeastSquares others (others.map weight) =
      weightedLeastSquares points (points.map weight) := by
  rw [weightedLeastSquares_exact, weightedLeastSquares_exact, centredLine_eq_of_perm h]
  simp only [hasSpread_iff_of_perm h]

end

/-! ## §2. Points -/

section

variable {points others : List (Point Rat)}

theorem checkDesign_eq_of_perm (h : others.Perm points) :
    checkDesign others = checkDesign points := by
  have hdistinct : distinctCount others = distinctCount points := by
    unfold distinctCount
    rw [Scalar.sort_eq_of_perm (h.map (·.x))]
  unfold checkDesign
  rw [hdistinct, h.isEmpty_eq]

/-- In another order each line corresponds to itself. -/
theorem corresponds_of_perm (h : others.Perm points) : Corresponds id points others := by
  have hplain : weightedLeastSquares others (unitWeights others) =
      (weightedLeastSquares points (unitWeights points)).map id := by
    unfold unitWeights
    rw [weightedLeastSquares_eq_of_perm h, Except.map_id]
    rfl
  have hround : ∀ (line : Line Rat) (scale t : Rat), reweighted others line scale t =
      (reweighted points line scale t).map id := by
    intro line scale t
    unfold reweighted huberWeights Line.residuals
    rw [List.map_map, List.map_map, weightedLeastSquares_eq_of_perm h, Except.map_id]
    rfl
  have hthreshold : exactFitThreshold others = exactFitThreshold points := by
    unfold exactFitThreshold
    rw [Scalar.foldl_larger_eq_of_perm (fun p : Point Rat => Scalar.abs p.y) h]
  exact Corresponds.of_residuals (checkDesign_eq_of_perm h) hplain hround hthreshold
    fun line => h.map line.residual

/-- Both methods, under any options, find the same line in the same number of iterations. -/
theorem Estimator.fit_eq_of_perm (h : others.Perm points) (e : Estimator Rat) :
    e.fit others = e.fit points := by
  have hself : LineFit.mapLine (id : Line Rat → Line Rat) = id := rfl
  rw [(corresponds_of_perm h).fit e, hself, Except.map_id]
  rfl

end

/-! ## §3. Samples -/

/-- Samples in another order have the same estimate: the same number of samples, the same fit or
the same error of the fit, and the same outcome with all that it carries. -/
theorem estimates_ignore_order {samples others : List (Sample Rat)} (h : others.Perm samples)
    (e : Estimator Rat) (capacity : Rat) :
    others.length = samples.length ∧
      e.fit (others.filterMap Sample.features?) = e.fit (samples.filterMap Sample.features?) ∧
      e.outcome others capacity = e.outcome samples capacity := by
  have hfit := Estimator.fit_eq_of_perm (h.filterMap Sample.features?) e
  refine ⟨h.length_eq, hfit, ?_⟩
  unfold Estimator.outcome Estimator.crossing
  rw [hfit]

/-- Five samples, the third of which is far from the line that the others are close to. -/
def samplesWithOutlier : List (Sample Rat) :=
  [(1, 1), (2, 2), (3, 12), (4, 5), (5, 5)].map fun (rate, ratio) =>
    { link := 7, experiment := 1, gin := 1, gout := ratio, length := rate }

def estimatorOfTenRounds : Estimator Rat :=
  ⟨.robust, ⟨10, 1 / 10, 3 / 2⟩, 1 / 1000000000⟩

/-- Read backwards, the samples have the same line after the same eight iterations. -/
theorem estimates_ignore_order_backwards :
    samplesWithOutlier.reverse.Perm samplesWithOutlier ∧
      samplesWithOutlier.reverse ≠ samplesWithOutlier ∧
      (estimatorOfTenRounds.outcome samplesWithOutlier.reverse 100).fit?.map
        (fun fit => (fit.slope, fit.iterations)) = some (11 / 10, 8) := by
  have hperm := List.reverse_perm samplesWithOutlier
  obtain ⟨-, -, houtcome⟩ := estimates_ignore_order hperm estimatorOfTenRounds 100
  refine ⟨hperm, by decide +kernel, ?_⟩
  rw [houtcome]
  decide +kernel

end ProbeGap
