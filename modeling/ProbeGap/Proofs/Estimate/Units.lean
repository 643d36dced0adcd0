import Mathlib.Algebra.Order.Field.Basic
import Mathlib.Algebra.Order.Ring.Abs
import ProbeGap.Proofs.Fallible
import ProbeGap.Proofs.Regression.Correspondence
import ProbeGap.Proofs.Regression.Exact

/-!
# Estimates do not depend on the unit of rates

Packet lengths may be counted in any unit, as long as the capacity is given in the same one. In a
unit of which the old one has `c`, lengths and rates are multiplied by `c`, and slopes, which have
the rate below the line, are divided by it.

Read with rational numbers, every test of a fit stands this. The spread of `x` and the rounding
noise it is compared with grow by the square of `c`, both for the same reason. Residuals are
differences of gap ratios and have no unit, so the magnitude of an exact fit, the scale, the
objective and its relative change stay what they are. Lines in the one unit correspond to lines in
the other (`corresponds_inUnit`), and a record in the one to a record in the other
(`estimates_follow_unit`).
-/

namespace ProbeGap

/-! ## §1. Points and lines in another unit -/

/-- The point of a sample whose rate is given in a unit of which the old one has `c`. -/
def Point.inUnit (c : Rat) (p : Point Rat) : Point Rat :=
  ⟨c * p.x, p.y⟩

/-- The line through the same points. -/
def Line.inUnit (c : Rat) (l : Line Rat) : Line Rat :=
  ⟨l.intercept, l.slope / c⟩

section

variable {c : Rat} (hc : 0 < c) (points : List (Point Rat)) (weights : List Rat)
include hc

/-- Residuals have no unit. -/
theorem residuals_inUnit (l : Line Rat) :
    (l.inUnit c).residuals (points.map (Point.inUnit c)) = l.residuals points := by
  unfold Line.residuals
  rw [List.map_map]
  apply List.map_congr_left
  intro p _
  have hproduct : l.slope / c * (c * p.x) = l.slope * p.x := by
    rw [← mul_assoc, div_mul_cancel₀ _ (ne_of_gt hc)]
  show p.y - (l.intercept + l.slope / c * (c * p.x)) = p.y - (l.intercept + l.slope * p.x)
  rw [hproduct]

omit hc in
/-- A weighted sum over the new points is one over the old ones. -/
theorem weighted_inUnit (f : Point Rat → Rat) :
    weighted ((points.map (Point.inUnit c)).zip weights) f =
      weighted (points.zip weights) fun p => f (p.inUnit c) := by
  unfold weighted
  rw [List.zip_map_left, List.map_map]
  rfl

omit hc in
theorem weightedMean_x_inUnit :
    weightedMean (points.map (Point.inUnit c)) weights (·.x) =
      c * weightedMean points weights (·.x) := by
  unfold weightedMean
  rw [weighted_inUnit, ← mul_div_assoc, ← weighted_mul_left]
  rfl

omit hc in
theorem weightedMean_y_inUnit :
    weightedMean (points.map (Point.inUnit c)) weights (·.y) =
      weightedMean points weights (·.y) := by
  unfold weightedMean
  rw [weighted_inUnit]
  rfl

omit hc in
theorem spread_inUnit :
    spread (points.map (Point.inUnit c)) weights = c * c * spread points weights := by
  unfold spread
  rw [weightedMean_x_inUnit, weighted_inUnit, ← weighted_mul_left]
  apply weighted_congr
  intro pw _
  show (c * pw.1.x - c * _) * (c * pw.1.x - c * _) = _
  ring

omit hc in
theorem jointSpread_inUnit :
    jointSpread (points.map (Point.inUnit c)) weights = c * jointSpread points weights := by
  unfold jointSpread
  rw [weightedMean_x_inUnit, weightedMean_y_inUnit, weighted_inUnit, ← weighted_mul_left]
  apply weighted_congr
  intro pw _
  show (c * pw.1.x - c * _) * (pw.1.y - _) = _
  ring

theorem reach_inUnit : reach (points.map (Point.inUnit c)) = c * reach points := by
  have hstep : ∀ (greatest : Rat) (p : Point Rat),
      Scalar.larger (c * greatest) (Scalar.abs (p.inUnit c).x) =
        c * Scalar.larger greatest (Scalar.abs p.x) := by
    intro greatest p
    have habs : |c * p.x| = c * |p.x| := by rw [abs_mul, abs_of_pos hc]
    show Scalar.larger (c * greatest) (Scalar.abs (c * p.x)) = _
    rw [Scalar.abs_exact, Scalar.abs_exact, habs, Scalar.larger_exact, Scalar.larger_exact,
      mul_max_of_nonneg _ _ (le_of_lt hc)]
  have hstart : (Scalar.zero : Rat) = c * Scalar.zero := by
    rw [Scalar.zero_exact, mul_zero]
  unfold reach
  rw [List.foldl_map]
  calc points.foldl (fun m p => Scalar.larger m (Scalar.abs (p.inUnit c).x)) Scalar.zero
      = points.foldl (fun m p => Scalar.larger m (Scalar.abs (p.inUnit c).x))
          (c * Scalar.zero) := by rw [← hstart]
    _ = c * points.foldl (fun m p => Scalar.larger m (Scalar.abs p.x)) Scalar.zero :=
      List.foldl_hom (c * ·) hstep

/-- The spread of `x` and its noise grow alike. -/
theorem hasSpread_inUnit_iff :
    HasSpread (points.map (Point.inUnit c)) weights ↔ HasSpread points weights := by
  have hnoise : Scalar.epsilon * (c * reach points) * (Scalar.epsilon * (c * reach points))
        * weights.sum =
      c * c * (Scalar.epsilon * reach points * (Scalar.epsilon * reach points) * weights.sum) := by
    ring
  unfold HasSpread
  rw [reach_inUnit hc, spread_inUnit, hnoise, mul_lt_mul_iff_right₀ (mul_pos hc hc)]

theorem centredLine_inUnit :
    centredLine (points.map (Point.inUnit c)) weights =
      (centredLine points weights).inUnit c := by
  have hslope : c * jointSpread points weights / (c * c * spread points weights) =
      jointSpread points weights / spread points weights / c := by
    rw [mul_assoc, mul_div_mul_left _ _ (ne_of_gt hc), mul_comm c, div_div]
  have hproduct : jointSpread points weights / spread points weights / c
        * (c * weightedMean points weights (·.x)) =
      jointSpread points weights / spread points weights * weightedMean points weights (·.x) := by
    rw [← mul_assoc, div_mul_cancel₀ _ (ne_of_gt hc)]
  unfold centredLine Line.inUnit
  rw [spread_inUnit, jointSpread_inUnit, weightedMean_x_inUnit, weightedMean_y_inUnit, hslope,
    hproduct]

theorem weightedLeastSquares_inUnit :
    weightedLeastSquares (points.map (Point.inUnit c)) weights =
      (weightedLeastSquares points weights).map (Line.inUnit c) := by
  rw [weightedLeastSquares_exact, weightedLeastSquares_exact, centredLine_inUnit hc]
  simp only [hasSpread_inUnit_iff hc]
  split <;> rfl

/-! ## §2. The design -/

theorem equal_inUnit (x y : Rat) : Scalar.equal (c * x) (c * y) = Scalar.equal x y := by
  rw [Bool.eq_iff_iff, Scalar.equal_exact, Scalar.equal_exact]
  exact mul_right_inj' (ne_of_gt hc)

theorem dropRepeats_inUnit (xs : List Rat) :
    (dropRepeats (xs.map (c * ·))).length = (dropRepeats xs).length := by
  have hafter : ∀ (last : Rat) (xs : List Rat),
      (dropRepeats.after (c * last) (xs.map (c * ·))).length =
        (dropRepeats.after last xs).length := by
    intro last xs
    induction xs generalizing last with
    | nil => rfl
    | cons x xs ih =>
      rw [List.map_cons]
      unfold dropRepeats.after
      rw [equal_inUnit hc]
      by_cases hequal : Scalar.equal last x = true
      · rw [if_pos hequal, if_pos hequal]
        exact ih last
      · rw [if_neg hequal, if_neg hequal]
        exact congrArg (· + 1) (ih x)
  cases xs with
  | nil => rfl
  | cons x xs => exact congrArg (· + 1) (hafter x xs)

theorem checkDesign_inUnit :
    checkDesign (points.map (Point.inUnit c)) = checkDesign points := by
  have horder : (fun a b : Rat => Scalar.totalLe (c * a) (c * b)) = Scalar.totalLe := by
    funext a b
    simp only [Scalar.totalLe, mul_le_mul_iff_right₀ hc]
  have hsort : Scalar.sort ((points.map (Point.inUnit c)).map (·.x)) =
      (Scalar.sort (points.map (·.x))).map (c * ·) := by
    have hxs : (points.map (Point.inUnit c)).map (·.x) = (points.map (·.x)).map (c * ·) := by
      rw [List.map_map, List.map_map]
      rfl
    rw [hxs]
    unfold Scalar.sort
    rw [sortBy_map, horder]
  have hdistinct : distinctCount (points.map (Point.inUnit c)) = distinctCount points := by
    unfold distinctCount
    rw [hsort, dropRepeats_inUnit hc]
  unfold checkDesign
  rw [hdistinct, List.isEmpty_map]

omit hc in
/-- What counts as an exact fit is told by `y` alone. -/
theorem exactFitThreshold_inUnit :
    exactFitThreshold (points.map (Point.inUnit c)) = exactFitThreshold points := by
  unfold exactFitThreshold
  rw [List.foldl_map]
  rfl

omit hc in
theorem unitWeights_inUnit : unitWeights (points.map (Point.inUnit c)) = unitWeights points := by
  unfold unitWeights
  rw [List.map_map]
  rfl

/-- Each line in the old unit corresponds to the one through the same points in the new unit. -/
theorem corresponds_inUnit :
    Corresponds (Line.inUnit c) points (points.map (Point.inUnit c)) := by
  apply Corresponds.of_residuals (checkDesign_inUnit hc points)
  · rw [unitWeights_inUnit, weightedLeastSquares_inUnit hc]
  · intro line scale t
    unfold reweighted
    rw [residuals_inUnit hc, weightedLeastSquares_inUnit hc]
  · exact exactFitThreshold_inUnit points
  · intro line
    rw [residuals_inUnit hc]

end

/-! ## §3. Records in another unit -/

/-- The same sample with its length in the new unit. -/
def Sample.inUnit (c : Rat) (s : Sample Rat) : Sample Rat :=
  { s with length := c * s.length }

/-- The estimator whose least slope is the same in the new unit. -/
def Estimator.inUnit (c : Rat) (e : Estimator Rat) : Estimator Rat :=
  { e with slopeEpsilon := e.slopeEpsilon / c }

/-- The same reason, with its numbers in the new unit. -/
def Rejection.inUnit (c : Rat) : Rejection Rat → Rejection Rat
  | .fitFailure cause => .fitFailure cause
  | .degenerateSlope slope => .degenerateSlope (slope / c)
  | .outOfBounds estimate capacity => .outOfBounds (c * estimate) (c * capacity)

/-- The same outcome, with its numbers in the new unit. -/
def Outcome.inUnit (c : Rat) : Outcome Rat → Outcome Rat
  | .valid fit estimate => .valid (fit.mapLine (Line.inUnit c)) (c * estimate)
  | .outOfBounds fit estimate capacity =>
    .outOfBounds (fit.mapLine (Line.inUnit c)) (c * estimate) (c * capacity)
  | .degenerateSlope slope => .degenerateSlope (slope / c)
  | .fitFailure cause => .fitFailure cause

theorem filterMap_features?_inUnit (c : Rat) (samples : List (Sample Rat)) :
    (samples.map (Sample.inUnit c)).filterMap Sample.features? =
      (samples.filterMap Sample.features?).map (Point.inUnit c) := by
  have hsample : ∀ s : Sample Rat, (s.inUnit c).features? = s.features?.map (Point.inUnit c) := by
    intro s
    have hrate : c * s.length / s.gin = c * (s.length / s.gin) := mul_div_assoc _ _ _
    unfold Sample.features? Sample.inUnit
    dsimp only
    split
    · rfl
    · rw [hrate]
      rfl
  rw [List.filterMap_map, List.map_filterMap]
  exact congrArg (List.filterMap · samples) (funext hsample)

section

variable {c : Rat} (hc : 0 < c) (e : Estimator Rat)
include hc

theorem Estimator.rejectsSlope_inUnit (slope : Rat) :
    (e.inUnit c).rejectsSlope (slope / c) = e.rejectsSlope slope := by
  have hsmall : |slope / c| < e.slopeEpsilon / c ↔ |slope| < e.slopeEpsilon := by
    rw [abs_div, abs_of_pos hc]
    exact div_lt_div_iff_of_pos_right hc
  have hpositive : slope / c ≤ 0 ↔ slope ≤ 0 := by
    rw [div_le_iff₀ hc, zero_mul]
  unfold Estimator.rejectsSlope
  rw [Bool.eq_iff_iff, Bool.or_eq_true, Bool.or_eq_true, decide_eq_true_iff, decide_eq_true_iff,
    decide_eq_true_iff, decide_eq_true_iff, Scalar.abs_exact, Scalar.abs_exact]
  exact or_congr hsmall hpositive

theorem Outcome.within_inUnit (capacity : Rat) (o : Outcome Rat) :
    (o.inUnit c).within (c * capacity) = (o.within capacity).inUnit c := by
  cases o with
  | valid fit estimate =>
    have hbounds : 0 < c * estimate ∧ c * estimate < c * capacity ↔
        0 < estimate ∧ estimate < capacity := by
      rw [mul_pos_iff_of_pos_left hc, mul_lt_mul_iff_right₀ hc]
    unfold Outcome.inUnit Outcome.within
    dsimp only
    by_cases hinside : 0 < estimate ∧ estimate < capacity
    · have hbefore : boundedEstimate estimate capacity = .ok estimate := if_pos hinside
      have hafter : boundedEstimate (c * estimate) (c * capacity) = .ok (c * estimate) :=
        if_pos (hbounds.mpr hinside)
      rw [hbefore, hafter]
    · have hbefore : boundedEstimate estimate capacity
          = .error (.outOfBounds estimate capacity) := if_neg hinside
      have hafter : boundedEstimate (c * estimate) (c * capacity)
          = .error (.outOfBounds (c * estimate) (c * capacity)) := if_neg (mt hbounds.mp hinside)
      rw [hbefore, hafter]
  | outOfBounds fit estimate limit => rfl
  | degenerateSlope slope => rfl
  | fitFailure cause => rfl

/-- The fit in the new unit, with the same iteration count or the same error. -/
theorem Estimator.fit_inUnit (points : List (Point Rat)) :
    (e.inUnit c).fit (points.map (Point.inUnit c)) =
      (e.fit points).map (LineFit.mapLine (Line.inUnit c)) :=
  (corresponds_inUnit hc points).fit e

theorem Estimator.crossing_inUnit (points : List (Point Rat)) :
    (e.inUnit c).crossing (points.map (Point.inUnit c)) = (e.crossing points).inUnit c := by
  unfold Estimator.crossing
  rw [e.fit_inUnit hc]
  cases e.fit points with
  | error cause => rfl
  | ok fit =>
    have hcrossing : (fit.mapLine (Line.inUnit c)).toLine.unitCrossing
        = c * fit.toLine.unitCrossing := by
      show (Scalar.one - fit.intercept) / (fit.slope / c) =
        c * ((Scalar.one - fit.intercept) / fit.slope)
      rw [div_div_eq_mul_div, mul_comm, mul_div_assoc]
    show (if (e.inUnit c).rejectsSlope (fit.slope / c) = true then _ else _) = _
    rw [e.rejectsSlope_inUnit hc, hcrossing]
    by_cases hrejected : e.rejectsSlope fit.slope = true
    · simp only [if_pos hrejected]
      rfl
    · simp only [if_neg hrejected]
      rfl

theorem Estimator.outcome_inUnit (samples : List (Sample Rat)) (capacity : Rat) :
    (e.inUnit c).outcome (samples.map (Sample.inUnit c)) (c * capacity) =
      (e.outcome samples capacity).inUnit c := by
  unfold Estimator.outcome
  rw [filterMap_features?_inUnit, e.crossing_inUnit hc, Outcome.within_inUnit hc]

end

/-! ## §4. What changes with the unit -/

/-- An outcome before and after a change of the unit. -/
structure ChangesUnit (c : Rat) (before after : Outcome Rat) : Prop where
  status : after.status = before.status
  intercept : after.fit?.map (·.intercept) = before.fit?.map (·.intercept)
  slope : after.fit?.map (·.slope) = before.fit?.map (·.slope / c)
  iterations : after.fit?.map (·.iterations) = before.fit?.map (·.iterations)
  estimate : after.estimate? = before.estimate?.map (c * ·)
  /-- The reason is of the same kind. The error of a fit is the same. -/
  rejection : after.rejection? = before.rejection?.map (Rejection.inUnit c)

/-- What the tests of a fit make of points and lines does not depend on the unit. -/
structure TestsAlike (c : Rat) (points others : List (Point Rat)) : Prop where
  /-- Least squares find the spread of `x` large enough in both units or in none. -/
  spread : ∀ weights, HasSpread others weights ↔ HasSpread points weights
  exactFit : exactFitThreshold others = exactFitThreshold points
  /-- The objectives that convergence is told by are the same. -/
  deviance : ∀ (line : Line Rat) (t : Rat),
    (line.inUnit c).deviance others t = line.deviance points t

theorem changesUnit_inUnit (c : Rat) (o : Outcome Rat) : ChangesUnit c o (o.inUnit c) := by
  cases o <;> exact ⟨rfl, rfl, rfl, rfl, rfl, rfl⟩

/-- Where lengths and the capacity are multiplied by `c` and the least slope is divided by it, the
record of a link is the same but for the unit of its numbers. The fit takes the same number of
iterations or fails with the same error, and all its tests have the same answers. -/
theorem estimates_follow_unit {c : Rat} (hc : 0 < c) (e : Estimator Rat)
    (samples : List (Sample Rat)) (capacity : Rat) :
    ChangesUnit c (e.outcome samples capacity)
        ((e.inUnit c).outcome (samples.map (Sample.inUnit c)) (c * capacity)) ∧
      (e.inUnit c).fit ((samples.map (Sample.inUnit c)).filterMap Sample.features?) =
        (e.fit (samples.filterMap Sample.features?)).map (LineFit.mapLine (Line.inUnit c)) ∧
      ∀ points : List (Point Rat), TestsAlike c points (points.map (Point.inUnit c)) := by
  refine ⟨?_, ?_, ?_⟩
  · rw [e.outcome_inUnit hc]
    exact changesUnit_inUnit c _
  · rw [filterMap_features?_inUnit, e.fit_inUnit hc]
  · intro points
    exact ⟨hasSpread_inUnit_iff hc points, exactFitThreshold_inUnit points,
      (corresponds_inUnit hc points).deviance⟩

/-- Samples of packets of a thousand bytes, the slowest of which leave with the gap they had. -/
def samplesInBytes : List (Sample Rat) :=
  [(1 / 500, 1 / 500), (1 / 1000, 3 / 2500), (1 / 1250, 7 / 6250), (1 / 2000, 9 / 10000)].map
    fun (gin, gout) => { link := 7, experiment := 1, gin := gin, gout := gout, length := 1000 }

def estimatorInBytes : Estimator Rat :=
  ⟨.robust, ⟨12, 1 / 10, 3 / 2⟩, 1 / 1000000000000⟩

/-- Counted in bits, the samples give a valid estimate after the same five iterations. -/
theorem estimates_follow_unit_bits :
    (0 : Rat) < 8 ∧
      ∃ outcome, outcome =
          (estimatorInBytes.inUnit 8).outcome (samplesInBytes.map (Sample.inUnit 8)) 80000000 ∧
        outcome.status = .valid ∧
        outcome.fit?.map (·.iterations) = some 5 ∧
        outcome.estimate?.map Rat.floor = some 4282000 := by
  have hbits : (0 : Rat) < 8 := by decide
  obtain ⟨hchange, -, -⟩ := estimates_follow_unit hbits estimatorInBytes samplesInBytes 10000000
  refine ⟨hbits, _, rfl, ?_⟩
  have hcapacity : (80000000 : Rat) = 8 * 10000000 := by norm_num
  rw [hcapacity, hchange.status, hchange.iterations, hchange.estimate]
  decide +kernel

end ProbeGap
