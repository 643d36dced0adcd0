import ProbeGap.Estimate.Estimator
import ProbeGap.Store.Marking

/-!
# Configuration

A configuration names the experiments with their link capacities and holds the settings
of the estimator and of the selection of samples. Everything but the experiments has a
default, and there is a built-in table of experiments for runs without a file.
-/

namespace ProbeGap

/-! ## §1. Experiments -/

/-- Link capacities of an experiment, in bits per second. -/
structure Profile where
  /-- Capacity of the bottleneck. -/
  capacity : Float
  /-- Greatest throughput that the physical channel can have. -/
  maxCapacity : Float
  deriving DecidableEq

/-- The physical capacity in bytes per second, the unit of rates. -/
def Profile.physicalCapacity (p : Profile) : Float :=
  p.maxCapacity / 8

/-! ## §2. Settings -/

/-- Settings of the estimator. -/
structure EstimatorSettings where
  method : FitMethod := .robust
  /-- Number of workers, zero for all cores. No result depends on it. -/
  workers : Nat := 0
  maxIterations : Nat := 100
  tolerance : Float := 1e-8
  threshold : Float := 1.345
  slopeEpsilon : Float := 1e-9
  deriving DecidableEq

/-- The estimator with the given settings. -/
def EstimatorSettings.estimator (s : EstimatorSettings) : Estimator Float where
  method := s.method
  robust := ⟨s.maxIterations, s.tolerance, s.threshold⟩
  slopeEpsilon := s.slopeEpsilon

/-- Settings of the selection of samples. -/
structure SelectionSettings where
  /-- The least packet length, in bytes. -/
  packetSize : Float := 1362
  /-- The share of samples with the smallest input gaps that form the baseline. -/
  minConfidence : Float := 0.1
  /-- Pass over stored flags and mark the samples anew. -/
  recompute : Bool := false
  window : Option TimeWindow := none
  deriving DecidableEq

/-- The query for the candidates of an experiment under a physical capacity. -/
def SelectionSettings.query (s : SelectionSettings) (experiment : ExperimentId)
    (maxCapacity : Float) : CandidateQuery Float where
  experiment := experiment
  maxCapacity := maxCapacity
  packetSize := s.packetSize
  minConfidence := s.minConfidence
  window := s.window

/-! ## §3. Configurations -/

/-- A configuration. -/
structure Config where
  estimator : EstimatorSettings := {}
  selection : SelectionSettings := {}
  experiments : Table String Profile

/-- The capacities of an experiment. -/
def Config.profile? (c : Config) (name : String) : Option Profile :=
  c.experiments.get? name

/-- The experiments of the test bed. -/
def builtInExperiments : Table String Profile :=
  .ofList
    [("exp1", ⟨5000000, 10000000⟩), ("exp1_fluid", ⟨5000000, 10000000⟩),
     ("exp1_jitter", ⟨5000000, 10000000⟩), ("exp2", ⟨3000000, 5000000⟩),
     ("exp2_fluid", ⟨3000000, 5000000⟩), ("exp3", ⟨5000000, 10000000⟩),
     ("exp4", ⟨1000000, 4000000⟩), ("exp5", ⟨1000000, 4000000⟩),
     ("exp6", ⟨5000000, 10000000⟩), ("exp7", ⟨5000000, 10000000⟩),
     ("exp8", ⟨7000000, 10000000⟩)]

/-- The configuration used when no file is given. -/
def Config.builtIn : Config where
  experiments := builtInExperiments

end ProbeGap
