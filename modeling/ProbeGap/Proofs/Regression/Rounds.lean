import ProbeGap.Proofs.Regression.Design
import ProbeGap.Regression.Robust

/-!
# Rounds of the robust fit

A round of the robust fit solves one weighted least-squares problem and then ends in one of four
ways: it fails with the problem, or because the objective left the range of numbers; it returns
the line; or it hands the line over to the next round. `refine_succ` says which, as an equation
that later arguments about rounds start from.

Whatever the scalars are, some rounds in a row return a line and the number of problems solved
for it, which lies between the bounds that the rounds set, or they fail in one of three ways
(`refine_ends`). The robust fit adds the plain fit in front: its failures and its exact lines are
passed on (`robustFit_of_error`, `robustFit_of_exact`), and any other line is refined
(`robustFit_of_not_exact`).
-/

namespace ProbeGap

variable {α : Type} [Scalar α] {points : List (Point α)} {options : RobustOptions α}

theorem Line.isExact_iff {line : Line α} :
    line.isExact points = true ↔
      ∀ p ∈ points, Scalar.abs (line.residual p) ≤ exactFitThreshold points := by
  unfold Line.isExact isExactFit Line.residuals
  rw [List.all_eq_true, List.forall_mem_map]
  simp only [decide_eq_true_iff]

/-! ## §1. One round -/

section

variable {left solved : Nat} {line next : Line α} {scale deviance : α}

/-- A round fails with its least-squares problem. -/
theorem refine_succ_of_error {cause : FitError}
    (h : reweighted points line scale options.threshold = .error cause) :
    refine points options (left + 1) solved line scale deviance = .error cause := by
  unfold refine
  rw [h]
  rfl

/-- What a round does with the line it has solved for. -/
theorem refine_succ (h : reweighted points line scale options.threshold = .ok next) :
    refine points options (left + 1) solved line scale deviance =
      if next.isExact points = true then .ok { next with iterations := solved + 1 }
      else if ¬ Scalar.isFinite (next.deviance points options.threshold) = true then
        .error .nonFinite
      else if hasSettled options.tolerance deviance
          (next.deviance points options.threshold) = true then
        .ok { next with iterations := solved + 1 }
      else
        refine points options left (solved + 1) next (next.scale points)
          (next.deviance points options.threshold) := by
  rw [refine, h]
  show (if next.isExact points = true then _ else _) = _
  by_cases hexact : next.isExact points = true
  · rw [if_pos hexact, if_pos hexact]
    rfl
  · rw [if_neg hexact, if_neg hexact]
    show (if (!Scalar.isFinite (next.deviance points options.threshold)) = true then _ else _) = _
    by_cases hfinite : Scalar.isFinite (next.deviance points options.threshold) = true
    · rw [hfinite]
      rfl
    · rw [if_pos hfinite, Bool.eq_false_iff.mpr hfinite]
      rfl

end

/-! ## §2. Some rounds in a row -/

/-- The ways in which rounds end, where a line is returned with an iteration count from `first`
to `last`, and `limit` is the number of rounds there may be. -/
inductive EndsRounds (points : List (Point α)) (first last limit : Nat) :
    Except FitError (LineFit α) → Prop where
  | settled (fit : LineFit α) (solves : Solves points fit.toLine)
      (first_le : first ≤ fit.iterations) (le_last : fit.iterations ≤ last) :
      EndsRounds points first last limit (.ok fit)
  | singular : EndsRounds points first last limit (.error .singular)
  | nonFinite : EndsRounds points first last limit (.error .nonFinite)
  | exhausted : EndsRounds points first last limit (.error (.notConverged limit))

namespace EndsRounds

variable {first last limit : Nat} {result : Except FitError (LineFit α)}

/-- A later start is a start. -/
theorem of_first_le {later : Nat} (h : EndsRounds points later last limit result)
    (hle : first ≤ later) : EndsRounds points first last limit result := by
  cases h with
  | settled fit hsolves hfirst hlast => exact .settled fit hsolves (Nat.le_trans hle hfirst) hlast
  | singular => exact .singular
  | nonFinite => exact .nonFinite
  | exhausted => exact .exhausted

theorem solves {fit : LineFit α} (h : EndsRounds points first last limit result)
    (hfit : result = .ok fit) : Solves points fit.toLine := by
  cases h with
  | settled fit' hsolves _ _ =>
    cases hfit
    exact hsolves
  | singular => cases hfit
  | nonFinite => cases hfit
  | exhausted => cases hfit

end EndsRounds

/-- Every round either ends the rounds or leaves one less, so they end with a line of a round
that was left, or in one of three failures. -/
theorem refine_ends (left solved : Nat) (line : Line α) (scale deviance : α) :
    EndsRounds points (solved + 1) (solved + left) options.maxIterations
      (refine points options left solved line scale deviance) := by
  induction left generalizing solved line scale deviance with
  | zero => exact .exhausted
  | succ left ih =>
    cases hnext : reweighted points line scale options.threshold with
    | error cause =>
      rw [refine_succ_of_error hnext]
      rcases weightedLeastSquares_eq_error hnext with rfl | rfl
      · exact .singular
      · exact .nonFinite
    | ok next =>
      have hreturned : EndsRounds points (solved + 1) (solved + (left + 1)) options.maxIterations
          (.ok { next with iterations := solved + 1 }) :=
        .settled _ ⟨_, hnext⟩ (Nat.le_refl _) (by dsimp only; omega)
      rw [refine_succ hnext]
      split
      · exact hreturned
      · split
        · exact .nonFinite
        · split
          · exact hreturned
          · -- One more problem is solved and one less round is left, so the last count stays.
            have hrest := ih (solved + 1) next (next.scale points)
              (next.deviance points options.threshold)
            rw [show solved + 1 + left = solved + (left + 1) by omega] at hrest
            exact hrest.of_first_le (Nat.le_succ _)

/-! ## §3. The robust fit -/

/-- Where the plain fit fails, the robust fit fails with the same error. -/
theorem robustFit_of_error {cause : FitError} (h : plainFit points = .error cause) :
    robustFit points options = .error cause := by
  unfold robustFit
  rw [h]
  rfl

/-- A plain fit on whose line all points lie is kept. -/
theorem robustFit_of_exact {plain : LineFit α} (h : plainFit points = .ok plain)
    (hexact : plain.isExact points = true) : robustFit points options = .ok plain := by
  unfold robustFit
  rw [h]
  show (if plain.isExact points = true then Except.ok plain else _) = _
  rw [if_pos hexact]

/-- Any other plain fit is refined. -/
theorem robustFit_of_not_exact {plain : LineFit α} (h : plainFit points = .ok plain)
    (hexact : ¬ plain.isExact points = true) :
    robustFit points options =
      refine points options options.maxIterations 1 plain.toLine (plain.scale points)
        (plain.deviance points options.threshold) := by
  unfold robustFit
  rw [h]
  show (if plain.isExact points = true then Except.ok plain else _) = _
  rw [if_neg hexact]

/-- There is no robust fit without a plain one. -/
theorem exists_plainFit_of_robustFit {fit : LineFit α} (h : robustFit points options = .ok fit) :
    ∃ plain, plainFit points = .ok plain := by
  cases hplain : plainFit points with
  | error cause =>
    rw [robustFit_of_error hplain] at h
    cases h
  | ok plain => exact ⟨plain, rfl⟩

/-- The rounds add no errors of the design. -/
theorem robustFit_eq_error_iff {cause : FitError} (hsingular : cause ≠ .singular)
    (hnonFinite : cause ≠ .nonFinite) (hconverged : ∀ rounds, cause ≠ .notConverged rounds) :
    robustFit points options = .error cause ↔ checkDesign points = .error cause := by
  rw [← plainFit_eq_error_iff hsingular hnonFinite]
  constructor
  · intro h
    cases hplain : plainFit points with
    | error other =>
      rw [robustFit_of_error hplain] at h
      exact h
    | ok plain =>
      by_cases hexact : plain.isExact points = true
      · rw [robustFit_of_exact hplain hexact] at h
        cases h
      · rw [robustFit_of_not_exact hplain hexact] at h
        have hends : EndsRounds points 2 (1 + options.maxIterations) options.maxIterations
            (.error cause) := by
          rw [← h]
          exact refine_ends _ _ _ _ _
        cases hends with
        | singular => exact absurd rfl hsingular
        | nonFinite => exact absurd rfl hnonFinite
        | exhausted => exact absurd rfl (hconverged _)
  · exact robustFit_of_error

end ProbeGap
