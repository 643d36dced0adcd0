import Mathlib.Algebra.Order.Field.Basic
import Mathlib.Algebra.Order.Ring.Abs
import ProbeGap.Proofs.Fallible
import ProbeGap.Proofs.Numeric.Checked
import ProbeGap.Proofs.Regression.Exact

/-!
# Least squares are least

Read with rational numbers, the line that weighted least squares return is the only one with the
least weighted sum of squared residuals.

The squared residuals of a line are those that no line avoids, and two squares more
(`squaredResiduals_eq`). One is that of the difference in slope, times the spread of `x`; the
other is that of the distance at which the line passes the point of the two means, times the total
weight. Spread and total are positive where a line is returned, so the sum is least where both
differences vanish, and nowhere else (`eq_centredLine_of_squaredResiduals_le`).

The formula divides three times, by the total weight and by the spread, and each time behind a
test that rules out zero. To say so, it is read a second time, over scalars in which a division by
zero shows (`weightedLeastSquares_checked`).
-/

namespace ProbeGap

/-! ## §1. Squared residuals -/

section

variable {points : List (Point Rat)} {weights : List Rat}

/-- The weighted sum of the squared residuals of a line. -/
def squaredResiduals (points : List (Point Rat)) (weights : List Rat) (l : Line Rat) : Rat :=
  weighted (points.zip weights) fun p => l.residual p * l.residual p

/-- Deviations from a weighted mean cancel. -/
theorem weighted_deviation (htotal : weights.sum ≠ 0) (hlength : weights.length = points.length)
    (f : Point Rat → Rat) :
    weighted (points.zip weights) (fun p => f p - weightedMean points weights f) = 0 := by
  have hsplit : weighted (points.zip weights) (fun p => f p - weightedMean points weights f)
      = weighted (points.zip weights) f - weightedMean points weights f * weights.sum := by
    simp only [sub_eq_add_neg]
    rw [weighted_add, weighted_const hlength, neg_mul]
  rw [hsplit]
  unfold weightedMean
  rw [div_mul_cancel₀ _ htotal, sub_self]

/-- How far a line passes above the point of the two means. -/
def Line.offset (l : Line Rat) (points : List (Point Rat)) (weights : List Rat) : Rat :=
  l.intercept + l.slope * weightedMean points weights (·.x) - weightedMean points weights (·.y)

/-- The squared residuals of a line depend on its slope and its offset alone. -/
theorem squaredResiduals_eq (htotal : weights.sum ≠ 0)
    (hlength : weights.length = points.length) (l : Line Rat) :
    squaredResiduals points weights l =
      weighted (points.zip weights) (fun p =>
          (p.y - weightedMean points weights (·.y)) * (p.y - weightedMean points weights (·.y)))
        - 2 * l.slope * jointSpread points weights
        + l.slope * l.slope * spread points weights
        + l.offset points weights * l.offset points weights * weights.sum := by
  have hx := weighted_deviation htotal hlength (·.x)
  have hy := weighted_deviation htotal hlength (·.y)
  unfold squaredResiduals jointSpread spread
  generalize hmeanX : weightedMean points weights (·.x) = meanX at hx ⊢
  generalize hmeanY : weightedMean points weights (·.y) = meanY at hy ⊢
  have hoffset : l.offset points weights = l.intercept + l.slope * meanX - meanY := by
    unfold Line.offset
    rw [hmeanX, hmeanY]
  generalize l.offset points weights = c at hoffset ⊢
  have hexpand : ∀ p : Point Rat, l.residual p * l.residual p =
      (p.y - meanY) * (p.y - meanY) + (-(2 * l.slope) * ((p.x - meanX) * (p.y - meanY))
        + (l.slope * l.slope * ((p.x - meanX) * (p.x - meanX))
        + (-(2 * c) * (p.y - meanY) + (2 * l.slope * c * (p.x - meanX) + c * c)))) := by
    intro p
    unfold Line.residual
    rw [hoffset]
    ring
  -- The two linear terms vanish, as deviations from a mean cancel.
  simp only [hexpand]
  rw [weighted_add, weighted_add, weighted_add, weighted_add, weighted_add]
  rw [weighted_mul_left, weighted_mul_left, weighted_mul_left, weighted_mul_left,
    weighted_const hlength, hx, hy]
  ring

/-- What a line has more of squared residuals than the solution. -/
def Line.excess (l : Line Rat) (points : List (Point Rat)) (weights : List Rat) : Rat :=
  (l.slope - (centredLine points weights).slope) * (l.slope - (centredLine points weights).slope)
      * spread points weights
    + l.offset points weights * l.offset points weights * weights.sum

/-- Two lines agree in the part that no line avoids. -/
theorem squaredResiduals_eq_add_excess (h : HasSpread points weights)
    (hlength : weights.length = points.length) (l : Line Rat) :
    squaredResiduals points weights l =
      squaredResiduals points weights (centredLine points weights) + l.excess points weights := by
  have htotal : weights.sum ≠ 0 := ne_of_gt h.1
  have hspread : spread points weights ≠ 0 := ne_of_gt h.spread_pos
  have hcentred : (centredLine points weights).offset points weights = 0 := by
    unfold Line.offset centredLine
    ring
  have hslope : (centredLine points weights).slope * spread points weights
      = jointSpread points weights := div_mul_cancel₀ _ hspread
  unfold Line.excess
  rw [squaredResiduals_eq htotal hlength, squaredResiduals_eq htotal hlength, hcentred, ← hslope]
  ring

/-- Both parts of the excess are squares, times something positive. -/
theorem excess_parts_nonneg (h : HasSpread points weights) (l : Line Rat) :
    0 ≤ (l.slope - (centredLine points weights).slope)
        * (l.slope - (centredLine points weights).slope) * spread points weights ∧
      0 ≤ l.offset points weights * l.offset points weights * weights.sum :=
  ⟨mul_nonneg (mul_self_nonneg _) (le_of_lt h.spread_pos),
    mul_nonneg (mul_self_nonneg _) (le_of_lt h.1)⟩

/-- No line has smaller squared residuals than the solution. -/
theorem squaredResiduals_centredLine_le (h : HasSpread points weights)
    (hlength : weights.length = points.length) (l : Line Rat) :
    squaredResiduals points weights (centredLine points weights) ≤
      squaredResiduals points weights l := by
  obtain ⟨hfirst, hsecond⟩ := excess_parts_nonneg h l
  rw [squaredResiduals_eq_add_excess h hlength l]
  unfold Line.excess
  linarith

/-- And no other line has as small ones. -/
theorem eq_centredLine_of_squaredResiduals_le (h : HasSpread points weights)
    (hlength : weights.length = points.length) {l : Line Rat}
    (hle : squaredResiduals points weights l ≤
      squaredResiduals points weights (centredLine points weights)) :
    l = centredLine points weights := by
  obtain ⟨hfirst, hsecond⟩ := excess_parts_nonneg h l
  rw [squaredResiduals_eq_add_excess h hlength l] at hle
  unfold Line.excess at hle
  -- Neither part is negative and the sum is not positive, so both are zero.
  have hslopeZero : (l.slope - (centredLine points weights).slope)
      * (l.slope - (centredLine points weights).slope) * spread points weights = 0 := by
    linarith
  have hoffsetZero : l.offset points weights * l.offset points weights * weights.sum = 0 := by
    linarith
  have hslope : l.slope = (centredLine points weights).slope := by
    have hsquare := (mul_eq_zero.mp hslopeZero).resolve_right (ne_of_gt h.spread_pos)
    exact sub_eq_zero.mp (mul_self_eq_zero.mp hsquare)
  have hoffset : l.offset points weights = 0 :=
    mul_self_eq_zero.mp ((mul_eq_zero.mp hoffsetZero).resolve_right (ne_of_gt h.1))
  -- The slope and one point of a line determine the line.
  have hintercept : l.intercept = (centredLine points weights).intercept := by
    unfold Line.offset at hoffset
    rw [hslope] at hoffset
    unfold centredLine at hoffset ⊢
    dsimp only at hoffset ⊢
    linarith
  rw [show l = ⟨l.intercept, l.slope⟩ from rfl, hslope, hintercept]

end

/-! ## §2. Points without weight -/

section

variable {points : List (Point Rat)} {weights : List Rat}

/-- Without negative weights no sum of squared residuals is negative. -/
theorem squaredResiduals_nonneg (hweights : ∀ w ∈ weights, 0 ≤ w) (l : Line Rat) :
    0 ≤ squaredResiduals points weights l := by
  unfold squaredResiduals weighted
  apply List.sum_nonneg
  intro term hterm
  obtain ⟨pw, hpw, rfl⟩ := List.mem_map.mp hterm
  exact mul_nonneg (hweights pw.2 (List.of_mem_zip hpw).2) (mul_self_nonneg _)

/-- A line through all points of positive weight has no squared residuals. -/
theorem squaredResiduals_eq_zero (hweights : ∀ w ∈ weights, 0 ≤ w) {l : Line Rat}
    (hline : ∀ pw ∈ points.zip weights, 0 < pw.2 →
      pw.1.y = l.intercept + l.slope * pw.1.x) :
    squaredResiduals points weights l = 0 := by
  unfold squaredResiduals weighted
  apply List.sum_eq_zero
  intro term hterm
  obtain ⟨pw, hpw, rfl⟩ := List.mem_map.mp hterm
  rcases (hweights pw.2 (List.of_mem_zip hpw).2).eq_or_lt with hzero | hpos
  · rw [← hzero, zero_mul]
  · have hresidual : l.residual pw.1 = 0 := by
      unfold Line.residual
      rw [hline pw hpw hpos, sub_self]
    show pw.2 * (l.residual pw.1 * l.residual pw.1) = 0
    rw [hresidual, mul_zero, mul_zero]

end

/-! ## §3. Divisions -/

section

variable {verdict : Bool}

/-- A point with coordinates that are watched. -/
def Point.checked (verdict : Bool) (p : Point Rat) : Point (Checked verdict) :=
  ⟨.number p.x, .number p.y⟩

/-- A line with coefficients that are watched. -/
def Line.checked (verdict : Bool) (l : Line Rat) : Line (Checked verdict) :=
  ⟨.number l.intercept, .number l.slope⟩

variable (points : List (Point Rat)) (weights : List Rat)

theorem weightedSum_checked {f : Point Rat → Rat → Rat}
    {g : Point (Checked verdict) → Checked verdict → Checked verdict}
    (h : ∀ p w, g (p.checked verdict) (.number w) = .number (f p w)) :
    weightedSum ((points.map (Point.checked verdict)).zip (weights.map Checked.number)) g =
      .number (weightedSum (points.zip weights) f) := by
  unfold weightedSum
  rw [List.zip_map]
  apply Checked.foldl_number
  intro acc pw
  show Checked.number acc + g (pw.1.checked verdict) (.number pw.2) = _
  rw [h]
  rfl

theorem reach_checked :
    reach (points.map (Point.checked verdict)) = Checked.number (reach points) := by
  unfold reach
  apply Checked.foldl_number
  intro greatest p
  exact Checked.larger_number greatest (Scalar.abs p.x)

/-- Least squares never divide by zero: read with division watched, they give the same. -/
theorem weightedLeastSquares_checked :
    weightedLeastSquares (points.map (Point.checked verdict)) (weights.map Checked.number) =
      (weightedLeastSquares points weights).map (Line.checked verdict) := by
  unfold weightedLeastSquares
  dsimp only
  rw [Checked.sum_number, reach_checked, Checked.zero_eq_number, Checked.epsilon_eq_number]
  simp only [Checked.lt_number, Checked.mul_number]
  by_cases htotal : Scalar.zero < Scalar.sum weights
  · rw [if_neg (not_not_intro htotal), if_neg (not_not_intro htotal)]
    -- The means are divided by the total, which is positive here.
    have hmean : ∀ (f : Point Rat → Rat) (fChecked : Point (Checked verdict) → Checked verdict),
        (∀ p, fChecked (p.checked verdict) = .number (f p)) →
        weightedSum ((points.map (Point.checked verdict)).zip (weights.map Checked.number))
            (fun p w => w * fChecked p) / Checked.number (Scalar.sum weights) =
          .number (weightedSum (points.zip weights) (fun p w => w * f p)
            / Scalar.sum weights) := by
      intro f fChecked hf
      rw [weightedSum_checked points weights (f := fun p w => w * f p),
        Checked.div_number _ (ne_of_gt htotal)]
      intro p w
      rw [hf]
      rfl
    rw [hmean (·.x) (·.x) fun _ => rfl, hmean (·.y) (·.y) fun _ => rfl]
    generalize weightedSum (points.zip weights) (fun p w => w * p.x) / Scalar.sum weights = meanX
    generalize weightedSum (points.zip weights) (fun p w => w * p.y) / Scalar.sum weights = meanY
    rw [weightedSum_checked points weights
        (f := fun p w => w * (p.x - meanX) * (p.x - meanX)) fun _ _ => rfl,
      weightedSum_checked points weights
        (f := fun p w => w * (p.x - meanX) * (p.y - meanY)) fun _ _ => rfl]
    generalize weightedSum (points.zip weights) (fun p w => w * (p.x - meanX) * (p.x - meanX))
      = sxx
    simp only [Checked.lt_number]
    by_cases hnoise : Scalar.epsilon * reach points * (Scalar.epsilon * reach points)
        * Scalar.sum weights < sxx
    · rw [if_neg (not_not_intro hnoise), if_neg (not_not_intro hnoise)]
      -- The slope is divided by the spread, which is above a square times the total.
      have hsxx : sxx ≠ 0 := by
        have hsquare : 0 ≤ Scalar.epsilon * reach points * (Scalar.epsilon * reach points)
            * Scalar.sum weights := mul_nonneg (mul_self_nonneg _) (le_of_lt htotal)
        exact ne_of_gt (lt_of_le_of_lt hsquare hnoise)
      rw [Checked.div_number _ hsxx]
      rfl
    · rw [if_pos hnoise, if_pos hnoise]
      rfl
  · rw [if_pos htotal, if_pos htotal]
    rfl

end

/-! ## §4. The solution -/

/-- What weighted least squares give for points and weights. -/
structure SolvesExactly (points : List (Point Rat)) (weights : List Rat) : Prop where
  /-- No division is by zero. The means are tested in the spread, and a test on `undefined` that
  holds leads on to a line with coefficients that are no numbers. -/
  divides : ∀ verdict, weightedLeastSquares (points.map (Point.checked verdict))
      (weights.map Checked.number) =
    (weightedLeastSquares points weights).map (Line.checked verdict)
  /-- A line is returned if the weights do not vanish and the values of `x` are spread. -/
  returns_iff : (∃ line, weightedLeastSquares points weights = .ok line) ↔
    HasSpread points weights
  /-- Every other line has greater squared residuals. -/
  least : ∀ line, weightedLeastSquares points weights = .ok line → ∀ other, other ≠ line →
    squaredResiduals points weights line < squaredResiduals points weights other
  /-- A line through all points of positive weight is the one that is returned. -/
  through : ∀ line, weightedLeastSquares points weights = .ok line → ∀ other : Line Rat,
    (∀ pw ∈ points.zip weights, 0 < pw.2 →
      pw.1.y = other.intercept + other.slope * pw.1.x) → line = other

/-- Without negative weights least squares divide only by what is not zero, and return the line
with the least squared residuals. -/
theorem weightedLeastSquares_solvesExactly {points : List (Point Rat)} {weights : List Rat}
    (hlength : weights.length = points.length) (hweights : ∀ w ∈ weights, 0 ≤ w) :
    SolvesExactly points weights := by
  have hline : ∀ line, weightedLeastSquares points weights = .ok line →
      HasSpread points weights ∧ line = centredLine points weights := by
    intro line h
    rw [weightedLeastSquares_exact] at h
    split at h
    · next hspread => exact ⟨hspread, (Except.ok.inj h).symm⟩
    · cases h
  have hleast : ∀ line, weightedLeastSquares points weights = .ok line → ∀ other, other ≠ line →
      squaredResiduals points weights line < squaredResiduals points weights other := by
    intro line h other hne
    obtain ⟨hspread, rfl⟩ := hline line h
    apply lt_of_not_ge
    intro hle
    exact hne (eq_centredLine_of_squaredResiduals_le hspread hlength hle)
  refine ⟨fun verdict => weightedLeastSquares_checked points weights, ?_, hleast, ?_⟩
  · constructor
    · intro h
      obtain ⟨line, hok⟩ := h
      exact (hline line hok).1
    · intro hspread
      refine ⟨centredLine points weights, ?_⟩
      rw [weightedLeastSquares_exact, if_pos hspread]
  · intro line h other hthrough
    by_contra hne
    have hless := hleast line h other (Ne.symm hne)
    -- The other line has no squared residuals, and less than none is not possible.
    rw [squaredResiduals_eq_zero hweights hthrough] at hless
    have hnonneg : 0 ≤ squaredResiduals points weights line :=
      squaredResiduals_nonneg hweights line
    exact absurd hless (not_lt.mpr hnonneg)

/-- Three points on a line, and one off it. -/
def threeOnLine : List (Point Rat) :=
  [⟨1, 1⟩, ⟨2, 7⟩, ⟨3, 2⟩, ⟨5, 3⟩]

/-- Where the point off the line has no weight, the line of the others is returned. -/
theorem weightedLeastSquares_of_threeOnLine :
    SolvesExactly threeOnLine [2, 0, 1, 1 / 3] ∧
      weightedLeastSquares threeOnLine [2, 0, 1, 1 / 3] = .ok ⟨1 / 2, 1 / 2⟩ := by
  have hlength : ([2, 0, 1, 1 / 3] : List Rat).length = threeOnLine.length := rfl
  have hweights : ∀ w ∈ ([2, 0, 1, 1 / 3] : List Rat), 0 ≤ w := by decide +kernel
  exact ⟨weightedLeastSquares_solvesExactly hlength hweights, by decide +kernel⟩

end ProbeGap
