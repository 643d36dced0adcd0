import ProbeGap.Estimate.Estimator
import ProbeGap.Proofs.Regression.Median
import ProbeGap.Proofs.Regression.Rounds

/-!
# Two fits that run alike

Two lists of points may be different and yet be fitted alike: each line that is found for one of
them corresponds to a line that is found for the other, and every test that the iteration makes
has the same answer. `Corresponds` lists what one round has to preserve for that. The rounds that
follow each other, and the robust fit as a whole, are then the same up to the correspondence of
the lines, with the same iteration counts and the same errors (`Corresponds.fit`).

Apart from the least squares themselves a round looks at its points through their residuals and
the magnitude up to which a residual is noise. Neither the scale nor the objective depends on the
order of the residuals. So for rational numbers it is enough that the residuals of corresponding
lines are the same up to their order (`Corresponds.of_residuals`).
-/

namespace ProbeGap

/-! ## §1. The correspondence -/

section

variable {α : Type} [Scalar α]

/-- The line that corresponds to a fitted one, with the same iteration count. -/
def LineFit.mapLine (f : Line α → Line α) (fit : LineFit α) : LineFit α :=
  { f fit.toLine with iterations := fit.iterations }

/-- Points that are fitted alike, where `f` turns the lines of the first into lines of the
others. -/
structure Corresponds (f : Line α → Line α) (points others : List (Point α)) : Prop where
  design : checkDesign others = checkDesign points
  /-- Least squares with unit weights, where the fit starts. -/
  plain : weightedLeastSquares others (unitWeights others) =
    (weightedLeastSquares points (unitWeights points)).map f
  /-- Least squares with the weights that a line gives. -/
  round : ∀ line scale t, reweighted others (f line) scale t =
    (reweighted points line scale t).map f
  isExact : ∀ line, (f line).isExact others = line.isExact points
  scale : ∀ line, (f line).scale others = line.scale points
  deviance : ∀ line t, (f line).deviance others t = line.deviance points t

namespace Corresponds

variable {f : Line α → Line α} {points others : List (Point α)} {options : RobustOptions α}

/-! ## §2. Fits -/

theorem plainFit (h : Corresponds f points others) :
    plainFit others = (plainFit points).map (LineFit.mapLine f) := by
  unfold ProbeGap.plainFit
  rw [h.design, h.plain]
  cases checkDesign points with
  | error cause => rfl
  | ok _ =>
    cases weightedLeastSquares points (unitWeights points) with
    | error cause => rfl
    | ok line => rfl

/-- Rounds that start from corresponding lines end alike. -/
theorem refine (h : Corresponds f points others) (left solved : Nat) (line : Line α)
    (scale deviance : α) :
    refine others options left solved (f line) scale deviance =
      (refine points options left solved line scale deviance).map (LineFit.mapLine f) := by
  induction left generalizing solved line scale deviance with
  | zero => rfl
  | succ left ih =>
    have hround := h.round line scale options.threshold
    cases hnext : reweighted points line scale options.threshold with
    | error cause =>
      rw [hnext] at hround
      rw [refine_succ_of_error hround, refine_succ_of_error hnext]
      rfl
    | ok next =>
      rw [hnext] at hround
      -- The three tests after the round have the same answers.
      rw [refine_succ hround, refine_succ hnext, h.isExact, h.deviance, h.scale, ih]
      by_cases hexact : next.isExact points = true
      · rw [if_pos hexact, if_pos hexact]
        rfl
      · rw [if_neg hexact, if_neg hexact]
        by_cases hfinite : ¬ Scalar.isFinite (next.deviance points options.threshold) = true
        · rw [if_pos hfinite, if_pos hfinite]
          rfl
        · rw [if_neg hfinite, if_neg hfinite]
          by_cases hsettled : hasSettled options.tolerance deviance
              (next.deviance points options.threshold) = true
          · rw [if_pos hsettled, if_pos hsettled]
            rfl
          · rw [if_neg hsettled, if_neg hsettled]

theorem robustFit (h : Corresponds f points others) :
    robustFit others options = (robustFit points options).map (LineFit.mapLine f) := by
  have hplain := h.plainFit
  cases hfit : ProbeGap.plainFit points with
  | error cause =>
    rw [hfit] at hplain
    rw [robustFit_of_error hplain, robustFit_of_error hfit]
    rfl
  | ok plain =>
    rw [hfit] at hplain
    have hsame : (LineFit.mapLine f plain).toLine.isExact others
        = plain.toLine.isExact points := h.isExact plain.toLine
    by_cases hexact : plain.toLine.isExact points = true
    · rw [robustFit_of_exact hplain (hsame.trans hexact), robustFit_of_exact hfit hexact]
      rfl
    · rw [robustFit_of_not_exact hplain (hsame ▸ hexact), robustFit_of_not_exact hfit hexact]
      rw [← h.refine, ← h.scale, ← h.deviance]
      rfl

/-- Whichever the method, corresponding points are fitted by corresponding lines, with the same
iteration counts, or fail with the same errors. -/
theorem fit (h : Corresponds f points others) (e : Estimator α) :
    e.fit others = (e.fit points).map (LineFit.mapLine f) := by
  unfold Estimator.fit
  cases e.method with
  | robust => exact h.robustFit
  | ols => exact h.plainFit

end Corresponds

end

/-! ## §3. Residuals in another order -/

section

variable {xs ys : List Rat}

theorem isExactFit_eq_of_perm (h : xs.Perm ys) (threshold : Rat) :
    isExactFit xs threshold = isExactFit ys threshold :=
  h.all_eq

theorem robustScale_eq_of_perm (h : xs.Perm ys) (floor : Rat) :
    robustScale xs floor = robustScale ys floor := by
  unfold robustScale
  rw [medianScale_eq_of_perm h]

/-- Read with rational numbers, a sum does not depend on its order. -/
theorem huberDeviance_eq_of_perm (h : xs.Perm ys) (scale t : Rat) :
    huberDeviance xs scale t = huberDeviance ys scale t := by
  unfold huberDeviance
  rw [Scalar.sum_exact, Scalar.sum_exact]
  exact (h.map _).sum_eq

/-- Points correspond if the least squares of the rounds do, and lines that correspond have the
same residuals in some order. -/
theorem Corresponds.of_residuals {f : Line Rat → Line Rat} {points others : List (Point Rat)}
    (design : checkDesign others = checkDesign points)
    (plain : weightedLeastSquares others (unitWeights others) =
      (weightedLeastSquares points (unitWeights points)).map f)
    (round : ∀ line scale t, reweighted others (f line) scale t =
      (reweighted points line scale t).map f)
    (threshold : exactFitThreshold others = exactFitThreshold points)
    (residuals : ∀ line, ((f line).residuals others).Perm (line.residuals points)) :
    Corresponds f points others := by
  have hscale : ∀ line, (f line).scale others = line.scale points := by
    intro line
    unfold Line.scale
    rw [robustScale_eq_of_perm (residuals line), threshold]
  refine ⟨design, plain, round, ?_, hscale, ?_⟩
  · intro line
    unfold Line.isExact
    rw [isExactFit_eq_of_perm (residuals line), threshold]
  · intro line t
    unfold Line.deviance
    rw [huberDeviance_eq_of_perm (residuals line), hscale]

end

end ProbeGap
