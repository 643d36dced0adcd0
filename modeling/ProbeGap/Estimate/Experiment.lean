import ProbeGap.Config.Basic
import ProbeGap.Estimate.Record
import ProbeGap.Numeric.Count
import ProbeGap.Store.Basic

/-!
# Estimating experiments

The estimation of an experiment asks the store for its candidates, groups them by link
and estimates every group. A link none of whose samples takes part has no group; within a
group the samples keep the order in which they were given. Links are independent of each
other; their rows come in ascending order.

It can only fail before any link is looked at: when the experiment has no capacities in
the configuration, or is not in the store.
-/

namespace ProbeGap

/-! ## §1. Errors -/

/-- Why an experiment could not be estimated. -/
inductive EstimationError where
  | notFound (name : String)
  | store (error : StoreError)
  deriving DecidableEq

/-- The message of an estimation error. -/
def EstimationError.message : EstimationError → String
  | .notFound name => "experiment '" ++ name ++ "' not found"
  | .store error => "measurement store error: " ++ error.message

/-- A name that the store does not have is one that was not found. -/
def EstimationError.ofStoreError : StoreError → EstimationError
  | .notFound name => .notFound name
  | other => .store other

/-! ## §2. Links -/

/-- The samples that take part in the regression. -/
def usedSamples {α : Type} (samples : List (Sample α)) : List (Sample α) :=
  samples.filter (·.used)

/-- The used samples of every link that has any, in ascending order of the links. -/
def groupByLink {α : Type} (samples : List (Sample α)) : Table LinkId (List (Sample α)) :=
  Table.groupBy (·.link) (usedSamples samples)

/-- Estimate one link observation. -/
def Estimator.estimateLink (e : Estimator Float) (link : LinkId) (experiment : ExperimentId)
    (samples : List (Sample Float)) (capacity : Float) : LinkRecord :=
  .ofOutcome link experiment samples.length (e.outcome samples capacity)

/-- Estimate every group. -/
def Estimator.run (e : Estimator Float) (groups : Table LinkId (List (Sample Float)))
    (experiment : ExperimentId) (capacity : Float) : List LinkRecord :=
  groups.entries.map fun g => e.estimateLink g.1 experiment g.2 capacity

/-! ## §3. Experiments -/

/-- The estimates from the candidates of an experiment. -/
def Estimator.estimates (e : Estimator Float) (name : String) (id : ExperimentId)
    (capacity : Float) (candidates : List (Sample Float)) : ExperimentEstimates :=
  let groups := groupByLink candidates
  { name := name
    id := id
    method := e.method
    capacity := capacity
    totalSamples := candidates.length
    usedSamples := total (groups.values.map (·.length))
    links := e.run groups id capacity }

/-- Estimate every link of an experiment. -/
def estimateExperiment (store : Store) (config : Config) (e : Estimator Float)
    (name : String) : Except EstimationError ExperimentEstimates := do
  let some profile := config.profile? name
    | throw (.notFound name)
  let id ← (store.resolve name).mapError EstimationError.ofStoreError
  let capacity := profile.physicalCapacity
  let candidates ←
    (store.candidates (config.selection.query id capacity)).mapError EstimationError.ofStoreError
  return e.estimates name id capacity candidates

/-- Estimate every configured experiment, in the order of the names, up to the first one
that fails. -/
def estimateAll (store : Store) (config : Config) (e : Estimator Float) :
    Except EstimationError (List ExperimentEstimates) :=
  config.experiments.keys.mapM (estimateExperiment store config e)

end ProbeGap
