import ProbeGap.Estimate.Outcome
import ProbeGap.Sample

/-!
# Estimates of an experiment

The outcomes of the links of one experiment are kept as rows, which are also what report
files hold. A row has the same fields in all cases; which of them are filled follows from
the outcome it was made from. From the rows the shares and the median of a report are
computed.

## Contents

  * `LinkRecord`: the row of a link; `LinkRecord.ofOutcome` fills it.
  * `ExperimentEstimates`: the rows of an experiment with its counts and shares.
  * `ExperimentEstimates.get?`: the row of a link, by repeated halving.
-/

namespace ProbeGap

/-! ## §1. Rows -/

/-- The row of a link observation. -/
structure LinkRecord where
  link : LinkId
  experiment : ExperimentId
  samples : Nat
  intercept : Option Float
  slope : Option Float
  /-- Available bandwidth, in bytes per second. -/
  estimate : Option Float
  status : FitStatus
  reason : Option String
  deriving DecidableEq

namespace LinkRecord

/-- The row of an outcome. -/
def ofOutcome (link : LinkId) (experiment : ExperimentId) (samples : Nat)
    (outcome : Outcome Float) : LinkRecord where
  link := link
  experiment := experiment
  samples := samples
  intercept := outcome.fit?.map (·.intercept)
  slope := outcome.fit?.map (·.slope)
  estimate := outcome.estimate?
  status := outcome.status
  reason := outcome.rejection?.map (·.message)

/-- The estimate in bits per second. -/
def estimateBits (r : LinkRecord) : Option Float :=
  r.estimate.map (· * 8)

/-- Whether the row has the status of a valid estimate. -/
def isValid (r : LinkRecord) : Bool :=
  r.status == .valid

end LinkRecord

/-! ## §2. Experiments -/

/-- The rows of all links of an experiment. -/
structure ExperimentEstimates where
  name : String
  id : ExperimentId
  method : FitMethod
  /-- Physical capacity, in bytes per second. -/
  capacity : Float
  /-- Samples that were fetched. -/
  totalSamples : Nat
  /-- Samples that took part in the regression. -/
  usedSamples : Nat
  links : List LinkRecord
  deriving DecidableEq

namespace ExperimentEstimates

variable (e : ExperimentEstimates)

/-- The number of rows with a status. -/
def countStatus (status : FitStatus) : Nat :=
  (e.links.filter (·.status == status)).length

/-- The number of valid rows. -/
def validCount : Nat :=
  (e.links.filter (·.isValid)).length

/-- The number of rows without a valid estimate. -/
def missingCount : Nat :=
  e.links.length - e.validCount

/-- A share of a whole; zero of nothing. -/
def share (part whole : Nat) : Float :=
  if whole = 0 then Scalar.zero else Float.ofNat part / Float.ofNat whole

/-- The share of rows without a valid estimate. -/
def missingRatio : Float :=
  share e.missingCount e.links.length

/-- The share of fetched samples that took part in the regression. -/
def usedRatio : Float :=
  share e.usedSamples e.totalSamples

/-- The median of the estimates in bits per second, if there are any. -/
def medianBits : Option Float :=
  let values := e.links.filterMap (·.estimateBits)
  if values.isEmpty then none else some (median values)

end ExperimentEstimates

/-! ## §3. Look-up -/

/-- Narrow a range of ascending rows down to one: the last whose link is not beyond the
wanted one, or the first of the range. -/
def narrow (rows : Array LinkRecord) (link : LinkId) : (fuel base size : Nat) → Nat
  | 0, base, _ => base
  | fuel + 1, base, size =>
    if size ≤ 1 then base
    else
      let half := size / 2
      let beyond := match rows[base + half]? with
        | some row => decide (link < row.link)
        | none => true
      narrow rows link fuel (if beyond then base else base + half) (size - half)

/-- The row of a link, found by repeated halving of the rows, which are in ascending order
of their links. -/
def ExperimentEstimates.get? (e : ExperimentEstimates) (link : LinkId) : Option LinkRecord :=
  let rows := e.links.toArray
  match rows[narrow rows link rows.size 0 rows.size]? with
  | some row => if row.link = link then some row else none
  | none => none

end ProbeGap
