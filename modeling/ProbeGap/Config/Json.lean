import ProbeGap.Config.Basic
import ProbeGap.Store.DumpText

/-!
# Configurations as JSON

A configuration in the order of its sections, experiments under their names. A window is
left out where there is none.
-/

namespace ProbeGap

/-- The value of the settings of the estimator. -/
def EstimatorSettings.toJson (s : EstimatorSettings) : Json :=
  .object
    [("method", .string s.method.name),
     ("workers", .ofCount s.workers),
     ("max_iterations", .ofCount s.maxIterations),
     ("tolerance", .ofFloat s.tolerance),
     ("huber_t", .ofFloat s.threshold),
     ("slope_epsilon", .ofFloat s.slopeEpsilon)]

/-- The value of a window. -/
def TimeWindow.toJson (w : TimeWindow) : Json :=
  .object [("start", .string w.start.text), ("end", .string w.stop.text)]

/-- The value of the settings of the selection. -/
def SelectionSettings.toJson (s : SelectionSettings) : Json :=
  .object
    ([("probe_packet_size", .ofFloat s.packetSize),
      ("min_confidence", .ofFloat s.minConfidence),
      ("recompute_candidates", .bool s.recompute)] ++
     match s.window with
     | some w => [("window", w.toJson)]
     | none => [])

/-- The value of the capacities of an experiment. -/
def Profile.toJson (p : Profile) : Json :=
  .object [("capacity", .ofFloat p.capacity), ("max_capacity", .ofFloat p.maxCapacity)]

/-- The value of a configuration. -/
def Config.toJson (c : Config) : Json :=
  .object
    [("estimator", c.estimator.toJson),
     ("selection", c.selection.toJson),
     ("experiments", .object (c.experiments.entries.map fun e => (e.1, e.2.toJson)))]

end ProbeGap
