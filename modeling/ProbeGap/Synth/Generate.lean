import ProbeGap.Config.Basic
import ProbeGap.Numeric.Decimal
import ProbeGap.Store.Basic
import ProbeGap.Synth.Words

/-!
# Synthetic measurements

A bottleneck of capacity `C`, on which other traffic leaves the bandwidth `A` available,
dilates the gap of a probe pair offered at rate `x` by `max 1 (x / C + 1 - A / C)`. The
generated samples follow this model at random rates, with a relative jitter and with
occasional bursts of the other traffic that dilate the gap further.

Every link observation has a time slot of its own, one second after that before it, and
its samples are a millisecond apart. The samples of an observation are marked as a store
would mark them.

## Contents

  * `SynthSpec`, `SynthError`: what is to be generated, and why it cannot be.
  * `drawSample`, `drawObservation`: one sample, and the marked samples of one link.
  * `generate`, `generateDump`: all observations, and the dump that holds them.
-/

namespace ProbeGap

/-! ## §1. Requests -/

/-- The shape of a synthetic experiment. -/
structure SynthSpec where
  experiment : ExperimentId
  links : Nat
  samplesPerLink : Nat
  /-- The bandwidth that every link observation leaves available, in bytes per second. -/
  bandwidth : Float
  /-- Relative amplitude of the jitter of the gap dilation. -/
  jitter : Float := 0.02
  burstProbability : Float := 0.05
  selection : SelectionSettings := {}
  /-- The time of the first sample of the first link. -/
  start : Instant

/-- Why nothing was generated. -/
inductive SynthError where
  | bandwidthOutOfRange (bandwidth capacity : Float)
  | burstProbabilityOutOfRange (probability : Float)
  | nothingRequested
  /-- Numbers cannot be drawn from a range that follows from the request. -/
  | unusableRange
  /-- No word of the source ever gives a number of a range, so that drawing never ends. -/
  | endless
  /-- The time of a sample is beyond the last year. -/
  | beyondCalendar
  deriving DecidableEq

/-- The message of an error. -/
def SynthError.message : SynthError → String
  | .bandwidthOutOfRange bandwidth capacity =>
    "available bandwidth " ++ plainText bandwidth ++ " must lie in (0, " ++ plainText capacity
      ++ ") bytes/s"
  | .burstProbabilityOutOfRange p => "burst probability " ++ plainText p ++ " outside [0, 1]"
  | .nothingRequested => "at least one link and one sample per link are required"
  | .unusableRange => "no numbers can be drawn from the range"
  | .endless => "no number of the range is ever drawn"
  | .beyondCalendar => "the time of a sample is out of range"

/-- Whether the generation broke down, or never ends, rather than that the request was
refused. -/
def SynthError.isBreakdown : SynthError → Bool
  | .unusableRange | .endless | .beyondCalendar => true
  | _ => false

/-- Capacity of the bottleneck in bytes per second. -/
def Profile.bottleneck (p : Profile) : Float :=
  p.capacity / 8

/-- The rules for a request, in the order in which they are reported. -/
def SynthSpec.check (spec : SynthSpec) (profile : Profile) : Except SynthError Unit :=
  if ¬ (0 < spec.bandwidth ∧ spec.bandwidth < profile.bottleneck) then
    .error (.bandwidthOutOfRange spec.bandwidth profile.bottleneck)
  else if ¬ (0 ≤ spec.burstProbability ∧ spec.burstProbability ≤ 1) then
    .error (.burstProbabilityOutOfRange spec.burstProbability)
  else if spec.links = 0 ∨ spec.samplesPerLink = 0 then .error .nothingRequested
  else .ok ()

/-- The query by which the samples are marked. -/
def SynthSpec.query (spec : SynthSpec) (profile : Profile) : CandidateQuery Float :=
  { spec.selection.query spec.experiment profile.physicalCapacity with window := none }

/-! ## §2. Samples -/

variable {σ : Type} [WordSource σ]

/-- Generation with a source of words. -/
abbrev Drawing (σ : Type) := StateT σ (Except SynthError)

/-- Draw a number of a range, `low` inclusive and `high` exclusive. -/
def drawRange (low high : Float) : Drawing σ Float := fun g =>
  if isRange low high then
    match drawBelow low high g with
    | some r => .ok r
    | none => .error .endless
  else .error .unusableRange

/-- Decide with a probability. -/
def decideWith (p : Float) : Drawing σ Bool := fun g =>
  .ok (drawBool p g)

/-- An instant, if the calendar has it. -/
def requireInstant (t : Option Instant) : Drawing σ Instant :=
  match t with
  | some t => pure t
  | none => throw .beyondCalendar

/-- Draw the rate of a sample and its gap dilation. -/
def drawPoint (spec : SynthSpec) (capacity : Float) : Drawing σ (Point Float) := do
  let x ← drawRange (0.2 * capacity) (0.98 * capacity)
  let y := Scalar.larger (x / capacity + 1 - spec.bandwidth / capacity) 1
  let y ←
    if 0 < spec.jitter then do
      let r ← drawRange (-spec.jitter) spec.jitter
      pure (y * (1 + r))
    else pure y
  let y ←
    if ← decideWith spec.burstProbability then do
      let r ← drawRange 0.5 2
      pure (y * (1 + r))
    else pure y
  return ⟨x, y⟩

/-- The sample with a given rate and gap dilation. -/
def SynthSpec.sampleAt (spec : SynthSpec) (link : LinkId) (time : Instant)
    (p : Point Float) : Sample Float :=
  let length := spec.selection.packetSize
  let gin := length / p.x
  { link := link
    experiment := spec.experiment
    gin := gin
    gout := p.y * gin
    length := length
    used := false
    timestamp := some time }

/-- Draw the sample with the given number, counted from zero, within the slot of a link. -/
def drawSample (spec : SynthSpec) (capacity : Float) (link : LinkId) (slot : Instant)
    (number : Nat) : Drawing σ (Sample Float) := do
  let p ← drawPoint spec capacity
  let time ← requireInstant (slot.addMillis? number)
  return spec.sampleAt link time p

/-! ## §3. Observations -/

/-- The link with the given number, counted from zero. Links are identified from one on. -/
def linkOfNumber (number : Nat) : LinkId :=
  UInt64.ofNat (number + 1)

/-- Draw and mark the samples of the link with the given number. -/
def drawObservation (spec : SynthSpec) (profile : Profile) (number : Nat) :
    Drawing σ (List (Sample Float)) := do
  let slot ← requireInstant (spec.start.addSeconds? number)
  let samples ← (List.range spec.samplesPerLink).mapM
    (drawSample spec profile.bottleneck (linkOfNumber number) slot)
  return markCandidates (spec.query profile) samples

/-- Draw the samples of all links. -/
def generate (profile : Profile) (spec : SynthSpec) : Drawing σ (List (Sample Float)) := do
  (spec.check profile : Except SynthError Unit)
  let observations ← (List.range spec.links).mapM (drawObservation spec profile)
  return observations.flatten

/-- Draw the dump of one experiment. -/
def generateDump (name : String) (profile : Profile) (spec : SynthSpec) :
    Drawing σ Dump := do
  let samples ← generate profile spec
  return ⟨[⟨spec.experiment, name⟩], samples⟩

end ProbeGap
