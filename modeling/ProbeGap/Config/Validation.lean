import ProbeGap.Config.Basic
import ProbeGap.Time.Written

/-!
# Validation of configurations

A configuration is accepted if every rule below holds. The rules are tried in a fixed
order, experiments in the order of their names, and the first one that fails is reported.
Comparisons are written so that not-a-number fails them.

Arguments of the command line may replace the method and the number of workers; the
result is validated again.
-/

namespace ProbeGap

/-! ## §1. Errors -/

/-- What is wrong with the capacities of an experiment. -/
inductive ProfileFault where
  | capacityNotPositive (value : Float)
  | maxCapacityNotPositive (value : Float)
  | capacityExceedsMax (capacity maxCapacity : Float)
  deriving DecidableEq

/-- The rule that a configuration violates. -/
inductive ValidationError where
  | noExperiments
  | profile (name : String) (fault : ProfileFault)
  | noIterations
  | toleranceNotPositive (value : Float)
  | thresholdNotPositive (value : Float)
  | slopeEpsilonNegative (value : Float)
  | packetSizeNotPositive (value : Float)
  | confidenceOutOfRange (value : Float)
  | windowNotForward (start stop : Instant)
  deriving DecidableEq

/-- The section of the configuration that an error is about. -/
inductive ConfigSection where
  | experiment
  | estimator
  | selection
  deriving DecidableEq, Repr

/-- The section that an error is about. -/
def ValidationError.concerns : ValidationError → ConfigSection
  | .noExperiments | .profile .. => .experiment
  | .noIterations | .toleranceNotPositive _ | .thresholdNotPositive _
  | .slopeEpsilonNegative _ => .estimator
  | .packetSizeNotPositive _ | .confidenceOutOfRange _ | .windowNotForward .. => .selection

/-- The words for a fault of an experiment. -/
def ProfileFault.words : ProfileFault → String
  | .capacityNotPositive v => "capacity must be a positive number, got " ++ plainText v
  | .maxCapacityNotPositive v => "max_capacity must be a positive number, got " ++ plainText v
  | .capacityExceedsMax c m =>
    "capacity " ++ plainText c ++ " exceeds max_capacity " ++ plainText m

/-- The words for a violated rule. -/
def ValidationError.words : ValidationError → String
  | .noExperiments => "at least one experiment must be configured"
  | .profile name fault => name ++ ": " ++ fault.words
  | .noIterations => "max_iterations must be at least 1"
  | .toleranceNotPositive v => "tolerance must be positive, got " ++ plainText v
  | .thresholdNotPositive v => "huber_t must be positive, got " ++ plainText v
  | .slopeEpsilonNegative v => "slope_epsilon must not be negative, got " ++ plainText v
  | .packetSizeNotPositive v => "probe_packet_size must be positive, got " ++ plainText v
  | .confidenceOutOfRange v => "min_confidence must be in (0, 1], got " ++ plainText v
  | .windowNotForward start stop =>
    "window start " ++ start.messageText ++ " is not before end " ++ stop.messageText

/-- The message of an error. -/
def ValidationError.message (e : ValidationError) : String :=
  (match e.concerns with
    | .experiment => "Invalid experiment configuration: "
    | .estimator => "Invalid estimator configuration: "
    | .selection => "Invalid selection configuration: ") ++ e.words

/-! ## §2. Rules -/

/-- Fail with an error unless a condition holds. -/
def require (condition : Bool) (error : ValidationError) : Except ValidationError Unit :=
  if condition then .ok () else .error error

/-- A finite number above zero. -/
def isPositive (x : Float) : Bool :=
  x.isFinite && decide (0 < x)

/-- The rules for an experiment. -/
def Profile.validate (name : String) (p : Profile) : Except ValidationError Unit := do
  require (isPositive p.capacity) (.profile name (.capacityNotPositive p.capacity))
  require (isPositive p.maxCapacity) (.profile name (.maxCapacityNotPositive p.maxCapacity))
  require (!decide (p.maxCapacity < p.capacity))
    (.profile name (.capacityExceedsMax p.capacity p.maxCapacity))

/-- The rules for the settings of the estimator. -/
def EstimatorSettings.validate (s : EstimatorSettings) : Except ValidationError Unit := do
  require (s.maxIterations != 0) .noIterations
  require (decide (0 < s.tolerance)) (.toleranceNotPositive s.tolerance)
  require (decide (0 < s.threshold)) (.thresholdNotPositive s.threshold)
  require (decide (0 ≤ s.slopeEpsilon)) (.slopeEpsilonNegative s.slopeEpsilon)

/-- The rules for the settings of the selection. -/
def SelectionSettings.validate (s : SelectionSettings) : Except ValidationError Unit := do
  require (decide (0 < s.packetSize)) (.packetSizeNotPositive s.packetSize)
  require (decide (0 < s.minConfidence) && decide (s.minConfidence ≤ 1))
    (.confidenceOutOfRange s.minConfidence)
  match s.window with
  | some w => require (decide (w.start < w.stop)) (.windowNotForward w.start w.stop)
  | none => return ()

/-- All rules, in the order in which they are reported. -/
def Config.validate (c : Config) : Except ValidationError Unit := do
  require (!c.experiments.isEmpty) .noExperiments
  c.experiments.entries.forM fun e => e.2.validate e.1
  c.estimator.validate
  c.selection.validate

/-! ## §3. Overrides -/

/-- Settings given on the command line. -/
structure Overrides where
  workers : Option Nat := none
  method : Option FitMethod := none
  deriving DecidableEq

/-- The configuration with the given settings in place. -/
def Config.withOverrides (c : Config) (o : Overrides) : Config :=
  { c with
    estimator :=
      { c.estimator with
        workers := o.workers.getD c.estimator.workers
        method := o.method.getD c.estimator.method } }

/-- Put the given settings in place and validate the result. -/
def Config.override (c : Config) (o : Overrides) : Except ValidationError Config := do
  let c := c.withOverrides o
  c.validate
  return c

end ProbeGap
