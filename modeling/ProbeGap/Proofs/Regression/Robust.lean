import ProbeGap.Proofs.Regression.Degenerate
import ProbeGap.Proofs.Regression.Solutions

/-!
# The robust fit and the plain one

The robust fit starts from the plain fit of the points, and what it returns is known in outline
whatever the points and the options are (`robustFit_refines_plainFit`). It fails where the plain
fit fails and keeps a plain fit through all points. Any other plain fit is refined for as many
rounds as the options allow, and the result is a line found in one of them or one of three errors.

How far the two fits differ is a matter of outliers. Points within the threshold have the weight
one, so without outliers the first round solves the problem of the plain fit again and finds the
same line. Its objective is the one before, and a finite number less itself is zero, which no
tolerance is below. So the iteration settles at once, unless the objective is infinite
(`robustFit_of_inliers`).
-/

namespace ProbeGap

variable {points : List (Point Float)} {options : RobustOptions Float}

/-- No point is farther off the line than rounding noise is. -/
def Line.PassesThrough (line : Line Float) (points : List (Point Float)) : Prop :=
  ∀ p ∈ points, (line.residual p).abs ≤ exactFitThreshold points

instance (line : Line Float) (points : List (Point Float)) :
    Decidable (line.PassesThrough points) :=
  inferInstanceAs (Decidable (∀ p ∈ points, _))

theorem Line.isExact_iff_passesThrough {line : Line Float} :
    line.isExact points = true ↔ line.PassesThrough points :=
  Line.isExact_iff

/-! ## §1. The outcomes -/

/-- What the robust fit of points returns, beside their plain fit. -/
structure RefinesPlainFit (points : List (Point Float)) (options : RobustOptions Float) :
    Prop where
  /-- Where the plain fit fails, the robust fit fails with the same error. -/
  same_failure : ∀ cause, plainFit points = .error cause → robustFit points options = .error cause
  /-- A plain fit through all points is returned as it is, with its iteration count of one. -/
  exact_kept : ∀ plain, plainFit points = .ok plain → plain.PassesThrough points →
    robustFit points options = .ok plain ∧ plain.iterations = 1
  /-- Any other is refined in some of the rounds that there may be, or not at all. -/
  otherwise_refined : ∀ plain, plainFit points = .ok plain → ¬ plain.PassesThrough points →
    EndsRounds points 2 (options.maxIterations + 1) options.maxIterations
      (robustFit points options)
  /-- There is nothing to be refined in without a round. -/
  without_rounds : ∀ plain, plainFit points = .ok plain → ¬ plain.PassesThrough points →
    options.maxIterations = 0 → robustFit points options = .error (.notConverged 0)
  coefficients_finite : ∀ fit, robustFit points options = .ok fit →
    fit.intercept.isFinite = true ∧ fit.slope.isFinite = true
  residuals_numbers : ∀ fit, robustFit points options = .ok fit →
    ∀ p ∈ points, (fit.residual p).isNaN = false
  empty_iff : robustFit points options = .error .empty ↔ points = []
  one_value : ∀ distinct,
    robustFit points options = .error (.insufficientSpread distinct) → distinct = 1

/-- The rounds of the robust fit start from the plain fit, and find a line in one of the rounds that
follow it. -/
theorem endsRounds_robustFit {plain : LineFit Float} (h : plainFit points = .ok plain)
    (hoff : ¬ plain.PassesThrough points) :
    EndsRounds points 2 (options.maxIterations + 1) options.maxIterations
      (robustFit points options) := by
  rw [robustFit_of_not_exact h (mt Line.isExact_iff_passesThrough.mp hoff),
    Nat.add_comm options.maxIterations 1]
  exact refine_ends _ _ _ _ _

/-- The robust fit refines the plain one, for all points and under all options. -/
theorem robustFit_refines_plainFit (points : List (Point Float))
    (options : RobustOptions Float) : RefinesPlainFit points options where
  same_failure := fun _ h => robustFit_of_error h
  exact_kept := by
    intro plain h hthrough
    exact ⟨robustFit_of_exact h (Line.isExact_iff_passesThrough.mpr hthrough),
      (plainFit_eq_ok_iff.mp h).2.2⟩
  otherwise_refined := fun _ h hoff => endsRounds_robustFit h hoff
  without_rounds := by
    intro plain h hoff hnone
    rw [robustFit_of_not_exact h (mt Line.isExact_iff_passesThrough.mp hoff), hnone]
    show Except.error (FitError.notConverged options.maxIterations) = _
    rw [hnone]
  coefficients_finite := by
    intro fit h
    exact (solves_of_robustFit_eq_ok h).isFinite.symm
  residuals_numbers := by
    intro fit h p hp
    obtain ⟨plain, hplain⟩ := exists_plainFit_of_robustFit h
    obtain ⟨hslope, hintercept⟩ := (solves_of_robustFit_eq_ok h).isFinite
    exact isNaN_residual (isFinite_of_plainFit hplain p hp) hslope hintercept
  empty_iff := by
    have hdesign : robustFit points options = .error .empty ↔ checkDesign points = .error .empty :=
      robustFit_eq_error_iff nofun nofun fun _ => nofun
    rw [hdesign, checkDesign_eq_error_iff]
    constructor
    · rintro (⟨hnil, -⟩ | ⟨-, -, hcause⟩)
      · exact hnil
      · cases hcause
    · exact fun hnil => Or.inl ⟨hnil, rfl⟩
  one_value := by
    intro distinct h
    have hdesign : robustFit points options = .error (.insufficientSpread distinct) ↔
        checkDesign points = .error (.insufficientSpread distinct) :=
      robustFit_eq_error_iff nofun nofun fun _ => nofun
    rcases checkDesign_eq_error (hdesign.mp h) with hcause | hcause
    · cases hcause
    · cases hcause
      rfl

/-! ## §2. Without outliers -/

/-- Points within the threshold are weighted like any other. -/
theorem huberWeights_of_inliers {line : Line Float} {scale threshold : Float}
    (h : ∀ p ∈ points, (line.residual p / scale).abs ≤ threshold) :
    huberWeights (line.residuals points) scale threshold = unitWeights points := by
  unfold huberWeights Line.residuals unitWeights
  rw [List.map_map]
  apply List.map_congr_left
  intro p hp
  exact if_pos (h p hp)

/-- The larger of a magnitude and one is positive, and finite if the magnitude is. -/
theorem larger_abs_one {d : Float} (hd : d.isFinite = true) :
    0 < Scalar.larger d.abs 1 ∧ (Scalar.larger d.abs 1).isFinite = true := by
  have hnumber : d.abs.isNaN = false := isNaN_abs (isNaN_eq_false_of_isFinite hd)
  unfold Scalar.larger
  by_cases hsmall : d.abs < 1
  · rw [if_pos hsmall]
    decide
  · have hself : d.abs ≤ d.abs := (le_iff_orderKey hnumber hnumber).mpr (Int.le_refl _)
    have hone : orderKey 1 ≤ orderKey d.abs := by
      rw [lt_iff_orderKey hnumber (by decide)] at hsmall
      omega
    rw [if_neg hsmall, if_pos hself]
    constructor
    · have hpos : (0 : Int) < orderKey 1 := by decide
      rw [lt_iff_orderKey (by decide) hnumber, orderKey_zero]
      omega
    · rw [isFinite_iff] at hd ⊢
      rw [magnitude_abs (isNaN_eq_false_iff.mpr (Nat.le_of_lt hd))]
      exact hd

/-- A finite objective that has not changed has settled under any tolerance. -/
theorem hasSettled_self {tolerance d : Float} (htolerance : 0 ≤ tolerance)
    (hd : d.isFinite = true) : hasSettled tolerance d d = true := by
  obtain ⟨hpos, hfinite⟩ := larger_abs_one hd
  unfold hasSettled
  rw [decide_eq_true_iff]
  show (d - d).abs ≤ tolerance * Scalar.larger d.abs 1
  rw [sub_self_of_isFinite hd]
  exact zero_le_mul htolerance hpos hfinite

/-- Without outliers the robust fit finds the line of the plain fit in its first round. -/
theorem robustFit_of_inliers {plain : LineFit Float} (hplain : plainFit points = .ok plain)
    (hoff : ¬ plain.PassesThrough points) (hrounds : 1 ≤ options.maxIterations)
    (htolerance : 0 ≤ options.tolerance)
    (hinliers : ∀ p ∈ points,
      (plain.residual p / plain.scale points).abs ≤ options.threshold) :
    robustFit points options =
      if (plain.deviance points options.threshold).isFinite = true then
        .ok { plain with iterations := 2 }
      else .error .nonFinite := by
  have hexact : ¬ plain.isExact points = true := mt Line.isExact_iff_passesThrough.mp hoff
  have hagain : reweighted points plain.toLine (plain.scale points) options.threshold
      = .ok plain.toLine := by
    unfold reweighted
    rw [huberWeights_of_inliers hinliers]
    exact (plainFit_eq_ok_iff.mp hplain).2.1
  rw [robustFit_of_not_exact hplain hexact,
    show options.maxIterations = options.maxIterations - 1 + 1 by omega, refine_succ hagain,
    if_neg hexact]
  show _ = if Scalar.isFinite (plain.deviance points options.threshold) = true then _ else _
  by_cases hfinite : Scalar.isFinite (plain.deviance points options.threshold) = true
  · rw [if_pos hfinite, if_neg (not_not_intro hfinite), if_pos (hasSettled_self htolerance hfinite)]
  · rw [if_neg hfinite, if_pos hfinite]

/-- Under an infinite threshold no point is an outlier, and settling at once takes no tolerance. -/
def boundless : RobustOptions Float where
  maxIterations := 1
  tolerance := 0
  threshold := 1 / 0

/-- Four points about a line. -/
def scattered : List (Point Float) :=
  [⟨1, 1⟩, ⟨2, 3⟩, ⟨3, 2⟩, ⟨4, 5⟩]

/-- Three points on a line that leaves the range of numbers on the way to the last of them. -/
def steep : List (Point Float) :=
  [⟨0, -1.0785e308⟩, ⟨0.7, 0⟩, ⟨1.4, 1.0785e308⟩]

/-- The line of the scattered points is found again, and that of the steep ones is given up. -/
theorem robustFit_of_scattered_and_steep :
    (∃ plain, plainFit scattered = .ok plain ∧ ¬ plain.PassesThrough scattered ∧
      (∀ p ∈ scattered,
        (plain.residual p / plain.scale scattered).abs ≤ boundless.threshold) ∧
      robustFit scattered boundless = .ok { plain with iterations := 2 }) ∧
    ∃ plain, plainFit steep = .ok plain ∧ ¬ plain.PassesThrough steep ∧
      (∀ p ∈ steep, (plain.residual p / plain.scale steep).abs ≤ boundless.threshold) ∧
      robustFit steep boundless = .error .nonFinite := by
  have hrounds : 1 ≤ boundless.maxIterations := Nat.le_refl 1
  have htolerance : 0 ≤ boundless.tolerance := by decide
  constructor
  · have hview : (plainFit scattered).toOption.map (fun plain => decide
        (¬ plain.PassesThrough scattered ∧
          (∀ p ∈ scattered,
            (plain.residual p / plain.scale scattered).abs ≤ boundless.threshold) ∧
          (plain.deviance scattered boundless.threshold).isFinite = true)) = some true := by
      decide +kernel
    obtain ⟨plain, hplain, hholds⟩ := exists_ok_of_view hview
    obtain ⟨hoff, hinliers, hfinite⟩ := of_decide_eq_true hholds
    have hfit := robustFit_of_inliers hplain hoff hrounds htolerance hinliers
    rw [if_pos hfinite] at hfit
    exact ⟨plain, hplain, hoff, hinliers, hfit⟩
  · have hview : (plainFit steep).toOption.map (fun plain => decide
        (¬ plain.PassesThrough steep ∧
          (∀ p ∈ steep, (plain.residual p / plain.scale steep).abs ≤ boundless.threshold) ∧
          ¬ (plain.deviance steep boundless.threshold).isFinite = true)) = some true := by
      decide +kernel
    obtain ⟨plain, hplain, hholds⟩ := exists_ok_of_view hview
    obtain ⟨hoff, hinliers, hinfinite⟩ := of_decide_eq_true hholds
    have hfit := robustFit_of_inliers hplain hoff hrounds htolerance hinliers
    rw [if_neg hinfinite] at hfit
    exact ⟨plain, hplain, hoff, hinliers, hfit⟩

end ProbeGap
