import ProbeGap.Proofs.Estimate.Experiment
import ProbeGap.Proofs.Numeric.Order
import ProbeGap.Proofs.Regression.Solutions

/-!
# What a row says is true

A row of a result has a status and four fields that may be absent. `LinkRecord.IsSound`
states which of them go together and what the present ones are worth: an estimate is there
exactly in valid rows, where it lies strictly between zero and the capacity; coefficients
are there exactly if a line was accepted, and an accepted line has a positive slope that is
not below the least one.

No setting is assumed to be sensible. A least slope or a capacity that is not a number makes
comparisons false, and each clause is stated so that it survives that.

## Contents

  * `Line.IsAccepted`: what the estimator requires of a line.
  * `Outcome.IsSound`, `Estimator.isSound_outcome`: every outcome, along all paths.
  * `LinkRecord.IsSound`, `estimateExperiment_links_isSound`: every row of every result.
-/

namespace ProbeGap

/-! ## §1. Accepted lines -/

/-- A line that an estimate may be computed from. -/
structure Line.IsAccepted (slopeEpsilon : Float) (line : Line Float) : Prop where
  finite_intercept : line.intercept.isFinite = true
  finite_slope : line.slope.isFinite = true
  slope_pos : 0 < line.slope
  slope_not_small : ¬ line.slope < slopeEpsilon

/-- A finite slope that is not rejected is positive, and not below the least slope. The
test looks at its magnitude, which for a positive slope is the slope itself. -/
theorem Estimator.slope_of_not_rejectsSlope {e : Estimator Float} {slope : Float}
    (hfinite : slope.isFinite = true) (h : e.rejectsSlope slope = false) :
    0 < slope ∧ ¬ slope < e.slopeEpsilon := by
  obtain ⟨hsmall, hpositive⟩ : ¬ slope.abs < e.slopeEpsilon ∧ ¬ slope ≤ 0 := by
    unfold Estimator.rejectsSlope at h
    obtain ⟨hsmall, hpositive⟩ := Bool.or_eq_false_iff.mp h
    exact ⟨of_decide_eq_false hsmall, of_decide_eq_false hpositive⟩
  have hnumber := isNaN_eq_false_of_isFinite hfinite
  have hpos : 0 < slope := lt_of_not_le hnumber (by decide) hpositive
  -- If the slope were below the least one, the least one would be a number.
  refine ⟨hpos, fun hlt => hsmall ?_⟩
  have hepsilon := (isNaN_eq_false_of_lt hlt).2
  rw [lt_iff_orderKey hnumber hepsilon] at hlt
  rw [lt_iff_orderKey (isNaN_abs hnumber) hepsilon, orderKey_abs_of_pos hpos]
  exact hlt

/-- A fitted line whose slope is not rejected is accepted. -/
theorem Estimator.isAccepted_of_fit {e : Estimator Float} {points : List (Point Float)}
    {fit : LineFit Float} (hfit : e.fit points = .ok fit)
    (h : e.rejectsSlope fit.slope = false) : fit.toLine.IsAccepted e.slopeEpsilon := by
  obtain ⟨hslope, hintercept⟩ := (Estimator.solves_of_fit_eq_ok hfit).isFinite
  obtain ⟨hpos, hnot⟩ := slope_of_not_rejectsSlope hslope h
  exact ⟨hintercept, hslope, hpos, hnot⟩

/-! ## §2. Outcomes -/

/-- What an outcome says of its line and its estimate is true. -/
def Outcome.IsSound (capacity slopeEpsilon : Float) : Outcome Float → Prop
  | .valid fit estimate =>
    fit.toLine.IsAccepted slopeEpsilon ∧ estimate = fit.unitCrossing ∧
      (0 < estimate ∧ estimate < capacity)
  | .outOfBounds fit estimate _ =>
    fit.toLine.IsAccepted slopeEpsilon ∧ estimate = fit.unitCrossing ∧
      ¬ (0 < estimate ∧ estimate < capacity)
  | .degenerateSlope _ => True
  | .fitFailure _ => True

/-- Before the bounds are looked at, an estimate is the crossing of an accepted line. -/
theorem Estimator.crossing_eq_valid {e : Estimator Float} {points : List (Point Float)}
    {fit : LineFit Float} {estimate : Float} (h : e.crossing points = .valid fit estimate) :
    fit.toLine.IsAccepted e.slopeEpsilon ∧ estimate = fit.unitCrossing := by
  unfold Estimator.crossing at h
  cases hfit : e.fit points with
  | error cause =>
    rw [hfit] at h
    cases h
  | ok line =>
    rw [hfit] at h
    dsimp only at h
    split at h
    · cases h
    · next hslope =>
      cases h
      exact ⟨isAccepted_of_fit hfit (Bool.eq_false_iff.mpr hslope), rfl⟩

/-- No outcome is out of bounds before the bounds are looked at. -/
theorem Estimator.crossing_ne_outOfBounds {e : Estimator Float} {points : List (Point Float)}
    {fit : LineFit Float} {estimate capacity : Float} :
    e.crossing points ≠ .outOfBounds fit estimate capacity := by
  intro h
  unfold Estimator.crossing at h
  split at h
  · cases h
  · split at h <;> cases h

theorem Estimator.isSound_outcome (e : Estimator Float) (samples : List (Sample Float))
    (capacity : Float) : (e.outcome samples capacity).IsSound capacity e.slopeEpsilon := by
  unfold Estimator.outcome
  -- The bounds touch valid outcomes only.
  cases hcrossing : e.crossing (samples.filterMap Sample.features?) with
  | valid fit estimate =>
    obtain ⟨haccepted, hestimate⟩ := crossing_eq_valid hcrossing
    simp only [Outcome.within, boundedEstimate]
    by_cases hbounds : (Scalar.zero : Float) < estimate ∧ estimate < capacity
    · rw [if_pos hbounds]
      exact ⟨haccepted, hestimate, hbounds⟩
    · rw [if_neg hbounds]
      exact ⟨haccepted, hestimate, hbounds⟩
  | outOfBounds fit estimate capacity => exact absurd hcrossing crossing_ne_outOfBounds
  | degenerateSlope slope => trivial
  | fitFailure cause => trivial

/-! ## §3. Rows -/

/-- What a row says under a capacity and a least slope is true. -/
structure LinkRecord.IsSound (capacity slopeEpsilon : Float) (r : LinkRecord) : Prop where
  /-- Exactly the valid rows have an estimate. -/
  valid_iff_estimate : r.status = .valid ↔ r.estimate.isSome = true
  /-- Exactly the valid rows have no reason. -/
  valid_iff_no_reason : r.status = .valid ↔ r.reason = none
  /-- The estimate is what the coefficients of the row give, within the bounds. -/
  estimate_within : ∀ estimate, r.estimate = some estimate →
    (∃ b₀ b₁, r.intercept = some b₀ ∧ r.slope = some b₁ ∧ estimate = (1 - b₀) / b₁) ∧
      0 < estimate ∧ estimate < capacity
  /-- Rows with an accepted line have both coefficients. -/
  coefficients_present : r.status = .valid ∨ r.status = .outOfBounds →
    r.intercept.isSome = true ∧ r.slope.isSome = true
  /-- Other rows have neither. -/
  coefficients_absent : r.status = .fitFailure ∨ r.status = .degenerateSlope →
    r.intercept = none ∧ r.slope = none
  /-- An intercept is a number. -/
  intercept_finite : ∀ b₀, r.intercept = some b₀ → b₀.isFinite = true
  /-- A slope is a positive number that is not below the least slope. -/
  slope_accepted : ∀ b₁, r.slope = some b₁ →
    b₁.isFinite = true ∧ 0 < b₁ ∧ ¬ b₁ < slopeEpsilon
  /-- A row is out of bounds only if its coefficients lead out of them. -/
  outside : r.status = .outOfBounds → ∀ b₀ b₁, r.intercept = some b₀ → r.slope = some b₁ →
    ¬ (0 < (1 - b₀) / b₁ ∧ (1 - b₀) / b₁ < capacity)

theorem LinkRecord.isSound_ofOutcome {link : LinkId} {experiment : ExperimentId}
    {samples : Nat} {capacity slopeEpsilon : Float} {outcome : Outcome Float}
    (h : outcome.IsSound capacity slopeEpsilon) :
    (LinkRecord.ofOutcome link experiment samples outcome).IsSound capacity slopeEpsilon := by
  cases outcome with
  | valid fit estimate =>
    obtain ⟨haccepted, hestimate, hbounds⟩ := h
    constructor <;>
      simp [ofOutcome, Outcome.status, Outcome.fit?, Outcome.estimate?, Outcome.rejection?]
    case estimate_within => exact ⟨hestimate, hbounds⟩
    case intercept_finite => exact haccepted.finite_intercept
    case slope_accepted =>
      exact ⟨haccepted.finite_slope, haccepted.slope_pos, haccepted.slope_not_small⟩
  | outOfBounds fit estimate bound =>
    obtain ⟨haccepted, hestimate, hbounds⟩ := h
    constructor <;>
      simp [ofOutcome, Outcome.status, Outcome.fit?, Outcome.estimate?, Outcome.rejection?]
    case intercept_finite => exact haccepted.finite_intercept
    case slope_accepted =>
      exact ⟨haccepted.finite_slope, haccepted.slope_pos, haccepted.slope_not_small⟩
    case outside =>
      intro hpos hlt
      rw [hestimate] at hbounds
      exact hbounds ⟨hpos, hlt⟩
  | degenerateSlope slope =>
    constructor <;>
      simp [ofOutcome, Outcome.status, Outcome.fit?, Outcome.estimate?, Outcome.rejection?]
  | fitFailure cause =>
    constructor <;>
      simp [ofOutcome, Outcome.status, Outcome.fit?, Outcome.estimate?, Outcome.rejection?]

/-- Every row of every result is sound under the capacity of the experiment and the least
slope of the estimator, whatever the settings are. -/
theorem estimateExperiment_links_isSound (store : Store) (config : Config)
    (e : Estimator Float) (name : String) (estimates : ExperimentEstimates)
    (h : estimateExperiment store config e name = .ok estimates) :
    ∃ profile, config.profile? name = some profile ∧
      estimates.capacity = profile.physicalCapacity ∧
      ∀ r ∈ estimates.links, r.IsSound profile.physicalCapacity e.slopeEpsilon := by
  obtain ⟨profile, id, rows, hprofile, -, -, rfl⟩ := estimateExperiment_eq_ok_iff.mp h
  refine ⟨profile, hprofile, rfl, ?_⟩
  intro r hr
  obtain ⟨link, -, rfl⟩ := mem_links_iff.mp hr
  exact LinkRecord.isSound_ofOutcome (e.isSound_outcome _ _)

/-- An estimator whose least slope is not a number. -/
def unorderedEstimator : Estimator Float where
  method := .robust
  robust := ⟨100, 1e-8, 1.345⟩
  slopeEpsilon := 0 / 0

/-- The rows of the four links end in the four ways, and are sound although no slope
compares with the least one. -/
theorem links_isSound_of_fourLinks :
    ∃ estimates,
      estimateExperiment fourLinks fourLinksConfig unorderedEstimator "exp1" = .ok estimates ∧
      estimates.links.map (·.status) =
        [.valid, .degenerateSlope, .fitFailure, .outOfBounds] ∧
      ∃ profile, fourLinksConfig.profile? "exp1" = some profile ∧
        estimates.capacity = profile.physicalCapacity ∧
        ∀ r ∈ estimates.links,
          r.IsSound profile.physicalCapacity unorderedEstimator.slopeEpsilon := by
  have hview : (estimateExperiment fourLinks fourLinksConfig unorderedEstimator
      "exp1").toOption.map (fun estimates => estimates.links.map (·.status)) =
        some [.valid, .degenerateSlope, .fitFailure, .outOfBounds] := by decide +kernel
  obtain ⟨estimates, hok, hstatus⟩ := exists_ok_of_view hview
  exact ⟨estimates, hok, hstatus,
    estimateExperiment_links_isSound fourLinks fourLinksConfig unorderedEstimator "exp1"
      estimates hok⟩

end ProbeGap
