import ProbeGap.Regression.Robust
import ProbeGap.Numeric.Decimal

/-!
# Outcomes of an estimation

A link observation that is estimated ends in one of four ways. Each constructor of
`Outcome` carries what is known in its case and nothing else: a line only where one was
fitted and accepted, an estimate only where it passed the bounds.

`Rejection` is the reason of a missing estimate, with its message.
-/

namespace ProbeGap

/-! ## §1. Methods and states -/

/-- How lines are fitted. -/
inductive FitMethod where
  /-- With weights that limit the influence of outliers. -/
  | robust
  /-- Plain least squares. -/
  | ols
  deriving DecidableEq, Repr, Inhabited

/-- The name of a method in files, messages and arguments. -/
def FitMethod.name : FitMethod → String
  | .robust => "robust"
  | .ols => "ols"

/-- The method of a name. -/
def FitMethod.ofName? (name : String) : Option FitMethod :=
  if name = "robust" then some .robust
  else if name = "ols" then some .ols
  else none

/-- In which of the four ways the estimation of a link ended. -/
inductive FitStatus where
  | valid
  | fitFailure
  | degenerateSlope
  | outOfBounds
  deriving DecidableEq, Repr

namespace FitStatus

/-- The name of a status in files. -/
def name : FitStatus → String
  | .valid => "valid"
  | .fitFailure => "fit_failure"
  | .degenerateSlope => "degenerate_slope"
  | .outOfBounds => "out_of_bounds"

/-- The words for a status in reports. -/
def words : FitStatus → String
  | .valid => "valid"
  | .fitFailure => "fit failure"
  | .degenerateSlope => "degenerate slope"
  | .outOfBounds => "out of bounds"

/-- The status of a name. -/
def ofName? (name : String) : Option FitStatus :=
  if name = "valid" then some .valid
  else if name = "fit_failure" then some .fitFailure
  else if name = "degenerate_slope" then some .degenerateSlope
  else if name = "out_of_bounds" then some .outOfBounds
  else none

end FitStatus

/-! ## §2. Reasons for a missing estimate -/

/-- The message of a failed fit. -/
def FitError.message : FitError → String
  | .empty => "no samples to fit"
  | .insufficientSpread distinct =>
    "need at least two distinct x values, found " ++ decimal distinct
  | .singular => "singular weighted design"
  | .nonFinite => "fit produced non-finite coefficients"
  | .notConverged iterations =>
    "robust fit did not converge after " ++ decimal iterations ++ " iterations"

/-- Why a link has no estimate. -/
inductive Rejection (α : Type) where
  | fitFailure (cause : FitError)
  /-- The slope is not positive, or too close to zero. -/
  | degenerateSlope (slope : α)
  /-- The estimate is not strictly between zero and the capacity. -/
  | outOfBounds (estimate capacity : α)
  deriving DecidableEq

/-- The message of a rejection. -/
def Rejection.message : Rejection Float → String
  | .fitFailure cause => "fit failed: " ++ cause.message
  | .degenerateSlope slope => "degenerate slope " ++ plainText slope
  | .outOfBounds estimate capacity =>
    "estimate " ++ plainText estimate ++ " outside (0, " ++ plainText capacity ++ ")"

/-! ## §3. Outcomes -/

/-- How the estimation of one link ended, and what is known then. -/
inductive Outcome (α : Type) where
  | valid (fit : LineFit α) (estimate : α)
  | outOfBounds (fit : LineFit α) (estimate capacity : α)
  | degenerateSlope (slope : α)
  | fitFailure (cause : FitError)
  deriving DecidableEq

namespace Outcome

variable {α : Type}

/-- The status of an outcome. -/
def status : Outcome α → FitStatus
  | .valid .. => .valid
  | .outOfBounds .. => .outOfBounds
  | .degenerateSlope .. => .degenerateSlope
  | .fitFailure .. => .fitFailure

/-- The accepted line. -/
def fit? : Outcome α → Option (LineFit α)
  | .valid fit _ => some fit
  | .outOfBounds fit _ _ => some fit
  | .degenerateSlope _ => none
  | .fitFailure _ => none

/-- The estimate within the bounds, in bytes per second. -/
def estimate? : Outcome α → Option α
  | .valid _ estimate => some estimate
  | _ => none

/-- Why there is no estimate. -/
def rejection? : Outcome α → Option (Rejection α)
  | .valid .. => none
  | .outOfBounds _ estimate capacity => some (.outOfBounds estimate capacity)
  | .degenerateSlope slope => some (.degenerateSlope slope)
  | .fitFailure cause => some (.fitFailure cause)

end Outcome
end ProbeGap
