import ProbeGap.Numeric.Scalar
import ProbeGap.Time.Instant

/-!
# Probe-pair samples

Two packets are sent through a link with a gap between them, and leave it with another.
A sample records both gaps and the length of the packets. In the probe-gap model the
ratio of the gaps grows linearly with the offered rate, once that exceeds the available
bandwidth. `Sample.features?` forms the pair of rate and ratio that lines are fitted to.
-/

namespace ProbeGap

/-- Identifies a link observation, one time-windowed unit of measurement. -/
abbrev LinkId := UInt64

/-- Identifies an experiment. -/
abbrev ExperimentId := UInt64

/-- One probe-pair measurement. -/
structure Sample (α : Type) where
  link : LinkId
  experiment : ExperimentId
  /-- Gap between the two packets when they enter, in seconds. -/
  gin : α
  /-- Gap between the two packets when they leave, in seconds. -/
  gout : α
  /-- Payload of a packet, in bytes. -/
  length : α
  /-- Whether the sample takes part in the regression. -/
  used : Bool := false
  timestamp : Option Instant := none
  deriving DecidableEq

/-- A point of the plane in which lines are fitted. -/
structure Point (α : Type) where
  /-- Offered rate, `length / gin`. -/
  x : α
  /-- Gap dilation, `gout / gin`. -/
  y : α
  deriving DecidableEq

variable {α : Type} [Scalar α]

/-- The point of a sample. There is none if the input gap is not finite or smaller than
`epsilon` in magnitude, or if a coordinate is not finite. -/
def Sample.features? (s : Sample α) : Option (Point α) :=
  if ¬ Scalar.isFinite s.gin ∨ Scalar.abs s.gin < Scalar.epsilon then none
  else
    let p : Point α := ⟨s.length / s.gin, s.gout / s.gin⟩
    if Scalar.isFinite p.x && Scalar.isFinite p.y then some p else none

end ProbeGap
