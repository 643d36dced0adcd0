import ProbeGap.Sample
import ProbeGap.Table

/-!
# Marking of regression candidates

A store without stored flags decides itself which samples take part in the regression.
For every link:

  1. samples are eligible if the input gap is positive, the packet is long enough, and
     neither rate of the sample reaches the physical capacity;
  2. the eligible samples are sorted by input gap;
  3. the baseline is the mean output gap of the first of them, as many as the wanted
     share of the eligible ones, rounded up, but at least one;
  4. an eligible sample is marked if its input gap is below the baseline.

All other samples are left unmarked. Nothing but the flag of a sample changes.

## Contents

  * `CandidateQuery`: what a store is asked for.
  * `isEligible`, `baseline?`: steps 1 to 3.
  * `markCandidates`: all four steps, for all links at once.
-/

namespace ProbeGap

/-! ## §1. Queries -/

/-- The candidates that a store is asked for. -/
structure CandidateQuery (α : Type) where
  experiment : ExperimentId
  /-- Physical capacity, in bytes per second. -/
  maxCapacity : α
  /-- The least packet length, in bytes. -/
  packetSize : α
  /-- The share of samples with the smallest input gaps that form the baseline. -/
  minConfidence : α
  /-- Only samples from this window, if one is given. -/
  window : Option TimeWindow := none
  deriving DecidableEq

variable {α : Type} [Scalar α]

/-! ## §2. The baseline of a link -/

/-- Whether a sample is physically possible and large enough. -/
def isEligible (q : CandidateQuery α) (s : Sample α) : Bool :=
  decide (Scalar.zero < s.gin) && decide (q.packetSize ≤ s.length) &&
    decide (s.length / s.gin < q.maxCapacity) && decide (s.length / s.gout < q.maxCapacity)

/-- How many of `count` samples form the baseline: the wanted share, rounded up, but at
least one and at most all. -/
def baselineCount (q : CandidateQuery α) (count : Nat) : Nat :=
  min (max (Scalar.ceilCount (Scalar.ofNat count * q.minConfidence)) 1) count

/-- Samples in ascending order of their input gaps. Equal gaps keep their order. -/
def byInputGap (samples : List (Sample α)) : List (Sample α) :=
  sortBy (fun a b => Scalar.totalLe a.gin b.gin) samples

/-- The mean output gap of the eligible samples with the smallest input gaps. -/
def baseline (q : CandidateQuery α) (eligible : List (Sample α)) : α :=
  let first := (byInputGap eligible).take (baselineCount q eligible.length)
  Scalar.sum (first.map (·.gout)) / Scalar.ofNat (baselineCount q eligible.length)

/-- The baseline of every link that has eligible samples. -/
def baselines (q : CandidateQuery α) (samples : List (Sample α)) : Table LinkId α :=
  (Table.groupBy (·.link) (samples.filter (isEligible q))).map (baseline q)

/-! ## §3. Marking -/

/-- Whether a sample is marked, given the baselines of the links. -/
def isCandidate (q : CandidateQuery α) (bases : Table LinkId α) (s : Sample α) : Bool :=
  isEligible q s &&
    match bases.get? s.link with
    | some base => decide (s.gin < base)
    | none => false

/-- The samples with their flags decided anew. -/
def markCandidates (q : CandidateQuery α) (samples : List (Sample α)) : List (Sample α) :=
  let bases := baselines q samples
  samples.map fun s => { s with used := isCandidate q bases s }

@[simp] theorem length_markCandidates (q : CandidateQuery α) (samples : List (Sample α)) :
    (markCandidates q samples).length = samples.length := by
  simp [markCandidates]

end ProbeGap
