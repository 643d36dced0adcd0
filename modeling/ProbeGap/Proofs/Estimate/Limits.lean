import Mathlib.Data.List.Forall2
import ProbeGap.Proofs.Estimate.Experiment
import ProbeGap.Proofs.Fallible
import ProbeGap.Proofs.Numeric.Order

/-!
# Looser limits lose no estimate

Two numbers can reject an estimate after the line of a link was fitted: the least slope, and the
capacity that the estimate has to stay below. Neither is looked at before. With stored flags the
capacity does not take part in the selection of the samples either, so two runs with different
limits fit the same lines to the same points.

What a looser limit does to a link is then a matter of its two tests. The outcome moves along

    degenerate slope  →  out of bounds  →  valid

or stays where it is, always with the same line; a fit that failed has failed before any limit
was looked at. `Outcome.LoosensTo` is this relation. It is carried over to rows
(`LinkRecord.LoosensTo`) and to results (`looser_limits_keep_estimates`).
-/

namespace ProbeGap

/-! ## §1. Two runs -/

/-- Two runs for an experiment that differ in its limits only: in the second one the physical
capacity is not smaller and the least slope is not greater. -/
structure LoosensLimits (name : String) (config config' : Config) (e e' : Estimator Float) :
    Prop where
  /-- The estimators differ in the least slope only. -/
  estimator : e' = { e with slopeEpsilon := e'.slopeEpsilon }
  least_slope : e'.slopeEpsilon ≤ e.slopeEpsilon
  selection : config'.selection = config.selection
  capacity : ∃ profile profile', config.profile? name = some profile ∧
    config'.profile? name = some profile' ∧
    profile.physicalCapacity ≤ profile'.physicalCapacity

/-! ## §2. Outcomes -/

/-- How the outcome of a link may change when limits are loosened. -/
inductive Outcome.LoosensTo : Outcome Float → Outcome Float → Prop where
  | fitFailure (cause : FitError) : LoosensTo (.fitFailure cause) (.fitFailure cause)
  | degenerateSlope (slope : Float) : LoosensTo (.degenerateSlope slope) (.degenerateSlope slope)
  /-- The slope is no longer too small, whatever the bounds then say. -/
  | accepted (fit : LineFit Float) (after : Outcome Float) (line : after.fit? = some fit) :
    LoosensTo (.degenerateSlope fit.slope) after
  | outOfBounds (fit : LineFit Float) (estimate capacity capacity' : Float) :
    LoosensTo (.outOfBounds fit estimate capacity) (.outOfBounds fit estimate capacity')
  /-- The estimate is below the new capacity. -/
  | admitted (fit : LineFit Float) (estimate capacity : Float) :
    LoosensTo (.outOfBounds fit estimate capacity) (.valid fit estimate)
  | valid (fit : LineFit Float) (estimate : Float) :
    LoosensTo (.valid fit estimate) (.valid fit estimate)

/-- A slope that a smaller least slope rejects is rejected by a greater one. -/
theorem Estimator.rejectsSlope_of_le {e e' : Estimator Float} {slope : Float}
    (hle : e'.slopeEpsilon ≤ e.slopeEpsilon) (h : e'.rejectsSlope slope = true) :
    e.rejectsSlope slope = true := by
  unfold Estimator.rejectsSlope at h ⊢
  rcases Bool.or_eq_true_iff.mp h with hsmall | hnegative
  · have hlt := lt_trans_le (of_decide_eq_true hsmall) hle
    exact Bool.or_eq_true_iff.mpr (Or.inl (decide_eq_true hlt))
  · exact Bool.or_eq_true_iff.mpr (Or.inr hnegative)

/-- With a smaller least slope a link has the same crossing, or one where its slope was
rejected before. -/
theorem Estimator.crossing_of_le {e e' : Estimator Float}
    (hsame : e' = { e with slopeEpsilon := e'.slopeEpsilon })
    (hle : e'.slopeEpsilon ≤ e.slopeEpsilon) (points : List (Point Float)) :
    e'.crossing points = e.crossing points ∨
      ∃ fit, e.crossing points = .degenerateSlope fit.slope ∧
        e'.crossing points = .valid fit fit.unitCrossing := by
  -- The line is fitted without a look at the least slope.
  have hfit : e'.fit points = e.fit points := by
    rw [hsame]
    rfl
  unfold Estimator.crossing
  rw [hfit]
  cases e.fit points with
  | error cause => exact Or.inl rfl
  | ok fit =>
    by_cases hnew : e'.rejectsSlope fit.slope = true
    · have hold := rejectsSlope_of_le hle hnew
      simp [hnew, hold]
    · by_cases hold : e.rejectsSlope fit.slope = true
      · right
        exact ⟨fit, by simp [hold], by simp [hnew]⟩
      · simp [hnew, hold]

/-- A larger capacity keeps what is within the bounds, and may let in what was not. -/
theorem Outcome.within_loosensTo {capacity capacity' : Float} (hle : capacity ≤ capacity')
    (o : Outcome Float) : (o.within capacity).LoosensTo (o.within capacity') := by
  cases o with
  | fitFailure cause => exact .fitFailure cause
  | degenerateSlope slope => exact .degenerateSlope slope
  | outOfBounds fit estimate bound => exact .outOfBounds fit estimate bound bound
  | valid fit estimate =>
    simp only [within, boundedEstimate]
    by_cases hold : (Scalar.zero : Float) < estimate ∧ estimate < capacity
    · have hnew : (Scalar.zero : Float) < estimate ∧ estimate < capacity' :=
        ⟨hold.1, lt_trans_le hold.2 hle⟩
      rw [if_pos hold, if_pos hnew]
      exact .valid fit estimate
    · rw [if_neg hold]
      by_cases hnew : (Scalar.zero : Float) < estimate ∧ estimate < capacity'
      · rw [if_pos hnew]
        exact .admitted fit estimate capacity
      · rw [if_neg hnew]
        exact .outOfBounds fit estimate capacity capacity'

/-- The bounds do not take the line away. -/
theorem Outcome.fit?_within (capacity : Float) (o : Outcome Float) :
    (o.within capacity).fit? = o.fit? := by
  cases o with
  | valid fit estimate =>
    simp only [within, boundedEstimate]
    split <;> rfl
  | fitFailure cause => rfl
  | degenerateSlope slope => rfl
  | outOfBounds fit estimate bound => rfl

/-- Both tests loosened at once. -/
theorem Estimator.outcome_loosensTo {e e' : Estimator Float} {capacity capacity' : Float}
    (hsame : e' = { e with slopeEpsilon := e'.slopeEpsilon })
    (hslope : e'.slopeEpsilon ≤ e.slopeEpsilon) (hcapacity : capacity ≤ capacity')
    (samples : List (Sample Float)) :
    (e.outcome samples capacity).LoosensTo (e'.outcome samples capacity') := by
  unfold Estimator.outcome
  rcases crossing_of_le hsame hslope (samples.filterMap Sample.features?) with
    heq | ⟨fit, hold, hnew⟩
  · rw [heq]
    exact Outcome.within_loosensTo hcapacity _
  · rw [hold, hnew]
    apply Outcome.LoosensTo.accepted
    exact Outcome.fit?_within capacity' _

/-! ## §3. Rows -/

/-- How the row of a link may change when limits are loosened. -/
structure LinkRecord.LoosensTo (before after : LinkRecord) : Prop where
  link : after.link = before.link
  experiment : after.experiment = before.experiment
  samples : after.samples = before.samples
  /-- A valid row stays as it is. -/
  valid : before.status = .valid → after = before
  /-- A row that was out of bounds keeps its line, and either stays out of them or becomes
  valid. -/
  out_of_bounds : before.status = .outOfBounds →
    (after.status = .outOfBounds ∨ after.status = .valid) ∧
      after.intercept = before.intercept ∧ after.slope = before.slope
  /-- A fit fails before and after or not at all, and for the same reason. -/
  fit_failure : before.status = .fitFailure ∨ after.status = .fitFailure → after = before
  /-- A slope that is too small was too small before. -/
  degenerate_slope : after.status = .degenerateSlope → after = before

theorem LinkRecord.loosensTo_ofOutcome {before after : Outcome Float}
    (h : before.LoosensTo after) (link : LinkId) (experiment : ExperimentId) (samples : Nat) :
    (ofOutcome link experiment samples before).LoosensTo
      (ofOutcome link experiment samples after) := by
  cases h with
  | fitFailure cause => constructor <;> simp [ofOutcome, Outcome.status]
  | degenerateSlope slope => constructor <;> simp [ofOutcome, Outcome.status]
  | accepted fit after line =>
    -- An outcome with a line is valid or out of bounds.
    cases after with
    | valid fit' estimate => constructor <;> simp [ofOutcome, Outcome.status]
    | outOfBounds fit' estimate bound => constructor <;> simp [ofOutcome, Outcome.status]
    | degenerateSlope slope => cases line
    | fitFailure cause => cases line
  | outOfBounds fit estimate capacity capacity' =>
    constructor <;> simp [ofOutcome, Outcome.status, Outcome.fit?]
  | admitted fit estimate capacity =>
    constructor <;> simp [ofOutcome, Outcome.status, Outcome.fit?]
  | valid fit estimate => constructor <;> simp [ofOutcome, Outcome.status]

/-- Row by row, loosened limits make no fewer rows valid. -/
theorem countP_isValid_le {before after : List LinkRecord}
    (h : List.Forall₂ LinkRecord.LoosensTo before after) :
    before.countP (·.isValid) ≤ after.countP (·.isValid) := by
  induction h with
  | nil => exact Nat.le_refl _
  | @cons row row' rows rows' hrow _ ih =>
    rw [List.countP_cons, List.countP_cons]
    by_cases hvalid : row.isValid = true
    · have hsame : row' = row := hrow.valid (by simpa [LinkRecord.isValid] using hvalid)
      rw [hsame]
      omega
    · rw [if_neg hvalid]
      omega

/-! ## §4. Results -/

/-- How a result may change when limits are loosened. -/
structure ExperimentEstimates.LoosensTo (before after : ExperimentEstimates) : Prop where
  name : after.name = before.name
  id : after.id = before.id
  total_samples : after.totalSamples = before.totalSamples
  used_samples : after.usedSamples = before.usedSamples
  /-- The same links in the same order, each with a row that may have changed. -/
  links : List.Forall₂ LinkRecord.LoosensTo before.links after.links
  valid_count : before.validCount ≤ after.validCount

theorem estimates_loosensTo {e e' : Estimator Float} {capacity capacity' : Float}
    (hsame : e' = { e with slopeEpsilon := e'.slopeEpsilon })
    (hslope : e'.slopeEpsilon ≤ e.slopeEpsilon) (hcapacity : capacity ≤ capacity')
    (name : String) (id : ExperimentId) (samples : List (Sample Float)) :
    (e.estimates name id capacity samples).LoosensTo
      (e'.estimates name id capacity' samples) := by
  have hlinks : List.Forall₂ LinkRecord.LoosensTo
      (e.estimates name id capacity samples).links
      (e'.estimates name id capacity' samples).links := by
    show List.Forall₂ _ ((groupByLink samples).entries.map _)
      ((groupByLink samples).entries.map _)
    rw [List.forall₂_map_left_iff, List.forall₂_map_right_iff, List.forall₂_same]
    intro group _
    apply LinkRecord.loosensTo_ofOutcome
    exact Estimator.outcome_loosensTo hsame hslope hcapacity group.2
  have hcount := countP_isValid_le hlinks
  rw [List.countP_eq_length_filter, List.countP_eq_length_filter] at hcount
  exact ⟨rfl, rfl, rfl, rfl, hlinks, hcount⟩

/-- With stored flags, looser limits fail on the same experiments with the same error, and not on
any that the store knows. Where they do not fail they attempt the same links with the same
samples, keep every valid row, and change the others in no way but those of
`LinkRecord.LoosensTo`. -/
theorem looser_limits_keep_estimates {store : Store} {name : String} {config config' : Config}
    {e e' : Estimator Float} (hstored : store.recompute = false)
    (h : LoosensLimits name config config' e e') :
    (∀ error, estimateExperiment store config e name = .error error ↔
      estimateExperiment store config' e' name = .error error) ∧
    (∀ id, store.resolve name = .ok id → store.samples.get? id ≠ none →
      ∃ before, estimateExperiment store config e name = .ok before) ∧
    ∀ before after, estimateExperiment store config e name = .ok before →
      estimateExperiment store config' e' name = .ok after → before.LoosensTo after := by
  obtain ⟨profile, profile', hprofile, hprofile', hcapacity⟩ := h.capacity
  simp only [resolve_eq_ok_iff]
  rw [estimateExperiment_eq, estimateExperiment_eq, hprofile, hprofile']
  -- Both runs ask the store for the same name and then for the same identifier.
  cases store.experiments.get? name with
  | none => simp
  | some id =>
    simp only [Store.select_of_stored hstored, SelectionSettings.query, h.selection]
    cases hrows : store.samples.get? id with
    | none => simp [hrows]
    | some rows =>
      refine ⟨by simp, by simp, ?_⟩
      intro before after hbefore hafter
      cases hbefore
      cases hafter
      exact estimates_loosensTo h.estimator h.least_slope hcapacity name id _

/-- Seven links with two samples each. Links 1 and 6 rise steeply, links 4, 5 and 7 slowly, link 2
not at all, and link 3 has a single `x`. -/
def sevenLinks : Store :=
  .ofDump ⟨[⟨1, "exp1"⟩],
    [sampleAt 1 1 0.5, sampleAt 1 2 1, sampleAt 2 1 1, sampleAt 2 2 1,
     sampleAt 3 2 1, sampleAt 3 2 3, sampleAt 4 1 0.25, sampleAt 4 2 0.5,
     sampleAt 5 1 0.3125, sampleAt 5 2 0.625, sampleAt 6 5 0.5, sampleAt 6 6 1,
     sampleAt 7 1 0.125, sampleAt 7 2 0.25]⟩

/-- The experiment of `fourLinksConfig` with a physical capacity of five bytes per second. -/
def wideConfig : Config where
  experiments := .ofList [("exp1", ⟨16, 40⟩)]

/-- The built-in estimator with a least slope. -/
def estimatorFrom (slopeEpsilon : Float) : Estimator Float :=
  ({ slopeEpsilon := slopeEpsilon } : EstimatorSettings).estimator

/-- Each way in which a row may change or stay occurs among the seven links. -/
theorem looser_limits_of_sevenLinks :
    sevenLinks.recompute = false ∧
      LoosensLimits "exp1" fourLinksConfig wideConfig (estimatorFrom 0.3) (estimatorFrom 1e-9) ∧
      ∃ before after,
        estimateExperiment sevenLinks fourLinksConfig (estimatorFrom 0.3) "exp1" = .ok before ∧
        estimateExperiment sevenLinks wideConfig (estimatorFrom 1e-9) "exp1" = .ok after ∧
        before.links.map (·.status) = [.valid, .degenerateSlope, .fitFailure, .degenerateSlope,
          .outOfBounds, .outOfBounds, .degenerateSlope] ∧
        after.links.map (·.status) = [.valid, .degenerateSlope, .fitFailure, .valid, .valid,
          .outOfBounds, .outOfBounds] ∧
        before.LoosensTo after := by
  have hstored : sevenLinks.recompute = false := rfl
  have hloosens : LoosensLimits "exp1" fourLinksConfig wideConfig (estimatorFrom 0.3)
      (estimatorFrom 1e-9) :=
    ⟨rfl, by decide +kernel, rfl, ⟨16, 24⟩, ⟨16, 40⟩, rfl, rfl, by decide +kernel⟩
  have hbefore : (estimateExperiment sevenLinks fourLinksConfig (estimatorFrom 0.3)
      "exp1").toOption.map (fun estimates => estimates.links.map (·.status)) =
        some [.valid, .degenerateSlope, .fitFailure, .degenerateSlope, .outOfBounds,
          .outOfBounds, .degenerateSlope] := by decide +kernel
  have hafter : (estimateExperiment sevenLinks wideConfig (estimatorFrom 1e-9)
      "exp1").toOption.map (fun estimates => estimates.links.map (·.status)) =
        some [.valid, .degenerateSlope, .fitFailure, .valid, .valid, .outOfBounds,
          .outOfBounds] := by decide +kernel
  obtain ⟨before, hokBefore, hstatusBefore⟩ := exists_ok_of_view hbefore
  obtain ⟨after, hokAfter, hstatusAfter⟩ := exists_ok_of_view hafter
  exact ⟨hstored, hloosens, before, after, hokBefore, hokAfter, hstatusBefore, hstatusAfter,
    (looser_limits_keep_estimates hstored hloosens).2.2 before after hokBefore hokAfter⟩

end ProbeGap
