import ProbeGap.Estimate.Estimator
import ProbeGap.Proofs.Regression.Rounds

/-!
# Fitted lines are least-squares lines

However a line is fitted, the last thing done is to solve a weighted least-squares problem
over all points, and the solution is returned as it is. So what holds of every solution
holds of every fitted line, whichever the method (`Estimator.solves_of_fit_eq_ok`). Here this
gives that the coefficients are finite, which no later step checks again.
-/

namespace ProbeGap

variable {α : Type} [Scalar α] {points : List (Point α)}

/-! ## §1. Fits -/

theorem solves_of_robustFit_eq_ok {options : RobustOptions α} {fit : LineFit α}
    (h : robustFit points options = .ok fit) : Solves points fit.toLine := by
  cases hplain : plainFit points with
  | error cause =>
    rw [robustFit_of_error hplain] at h
    cases h
  | ok plain =>
    by_cases hexact : plain.isExact points = true
    · rw [robustFit_of_exact hplain hexact] at h
      cases h
      exact solves_of_plainFit_eq_ok hplain
    · rw [robustFit_of_not_exact hplain hexact] at h
      exact (refine_ends _ _ _ _ _).solves h

/-- Either method returns a least-squares line. -/
theorem Estimator.solves_of_fit_eq_ok {e : Estimator α} {fit : LineFit α}
    (h : e.fit points = .ok fit) : Solves points fit.toLine := by
  unfold Estimator.fit at h
  cases hmethod : e.method with
  | robust =>
    rw [hmethod] at h
    exact solves_of_robustFit_eq_ok h
  | ols =>
    rw [hmethod] at h
    exact solves_of_plainFit_eq_ok h

/-! ## §2. Plain fits that are kept -/

/-- Where the plain fit fails, or finds a line on which all points lie, the robust fit is the
plain fit, whatever its options. -/
theorem robustFit_eq_plainFit (options : RobustOptions α)
    (hexact : ∀ fit, plainFit points = .ok fit → fit.toLine.isExact points = true) :
    robustFit points options = plainFit points := by
  cases hplain : plainFit points with
  | error cause => exact robustFit_of_error hplain
  | ok fit => exact robustFit_of_exact hplain (hexact fit hplain)

theorem Estimator.fit_eq_plainFit (e : Estimator α)
    (hexact : ∀ fit, plainFit points = .ok fit → fit.toLine.isExact points = true) :
    e.fit points = plainFit points := by
  unfold Estimator.fit
  cases e.method with
  | robust => exact robustFit_eq_plainFit e.robust hexact
  | ols => rfl

end ProbeGap
