import ProbeGap.Estimate.Outcome

/-!
# The estimator

For one link observation the estimator forms the points of its samples, fits a line and
solves it for `y = 1`: the rate from which on the gaps dilate is the available bandwidth.
A slope that is not positive, or too small to divide by, gives no estimate, and neither
does a crossing that is not strictly between zero and the capacity of the channel.
-/

namespace ProbeGap

/-- The settings of the estimation of one link. -/
structure Estimator (α : Type) where
  method : FitMethod
  robust : RobustOptions α
  /-- Slopes of a smaller magnitude give no estimate. -/
  slopeEpsilon : α
  deriving DecidableEq

variable {α : Type} [Scalar α]

/-- Keep an estimate that is strictly between zero and the capacity. -/
def boundedEstimate (estimate capacity : α) : Except (Rejection α) α :=
  if Scalar.zero < estimate ∧ estimate < capacity then .ok estimate
  else .error (.outOfBounds estimate capacity)

/-- Apply the bounds to an estimate; other outcomes stay as they are. -/
def Outcome.within (capacity : α) : Outcome α → Outcome α
  | .valid fit estimate =>
    match boundedEstimate estimate capacity with
    | .ok estimate => .valid fit estimate
    | .error _ => .outOfBounds fit estimate capacity
  | other => other

namespace Estimator

/-- Fit a line by the method of the estimator. -/
def fit (e : Estimator α) (points : List (Point α)) : Except FitError (LineFit α) :=
  match e.method with
  | .robust => robustFit points e.robust
  | .ols => plainFit points

/-- Whether a slope gives no estimate. -/
def rejectsSlope (e : Estimator α) (slope : α) : Bool :=
  decide (Scalar.abs slope < e.slopeEpsilon) || decide (slope ≤ Scalar.zero)

/-- Fit a line and solve it for `y = 1`, without regard to the bounds. -/
def crossing (e : Estimator α) (points : List (Point α)) : Outcome α :=
  match e.fit points with
  | .error cause => .fitFailure cause
  | .ok fit =>
    if e.rejectsSlope fit.slope then .degenerateSlope fit.slope
    else .valid fit fit.unitCrossing

/-- Estimate the link that the samples are of. Samples without a point are passed over. -/
def outcome (e : Estimator α) (samples : List (Sample α)) (capacity : α) : Outcome α :=
  (e.crossing (samples.filterMap Sample.features?)).within capacity

end Estimator
end ProbeGap
