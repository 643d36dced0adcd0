import ProbeGap.Regression.Line

/-!
# Robust lines

A robust fit minimises the loss of Huber, which is quadratic for small residuals and
linear beyond a threshold, so that single outliers cannot turn the line. It is found by
least squares with weights: start from the plain fit, weigh each point by how far it is
off the present line, solve again, and stop when the objective settles.

Residuals are measured in units of their own scale, which is estimated anew in every
round and never falls below the magnitude at which a point counts as lying on the line. The
scale is the median of the magnitudes, divided by the constant that makes it the standard
deviation of normal errors.

## Contents

  * `median`: the middle one of the values in ascending total order, or half the sum of the
    two middle ones; zero for no values.
  * `huberWeight`, `huberLoss`, `huberDeviance`: the objective and its weights.
  * `exactFitThreshold`, `robustScale`: the least residual that counts, and the scale.
  * `reweighted`: one round, as a function of its own.
  * `robustFit`: the whole iteration.
-/

namespace ProbeGap

/-- The settings of the iteration. -/
structure RobustOptions (α : Type) where
  /-- Rounds after which the iteration gives up. -/
  maxIterations : Nat
  /-- Relative change of the objective that counts as settled. -/
  tolerance : α
  /-- The residual, in units of the scale, from which the loss is linear. -/
  threshold : α
  deriving DecidableEq

variable {α : Type} [Scalar α]

/-! ## §1. The median -/

/-- The middle of values that are already in order. -/
def middle (s : List α) : α :=
  if h : s.length = 0 then Scalar.zero
  else if s.length % 2 = 1 then s.get ⟨s.length / 2, by omega⟩
  else
    (s.get ⟨s.length / 2 - 1, by omega⟩ + s.get ⟨s.length / 2, by omega⟩) / Scalar.ofNat 2

/-- The median of a list of values. -/
def median (xs : List α) : α :=
  middle (Scalar.sort xs)

/-! ## §2. The objective -/

/-- The weight of a residual `z` that is measured in units of the scale. -/
def huberWeight (z t : α) : α :=
  if Scalar.abs z ≤ t then Scalar.one else t / Scalar.abs z

/-- The loss of a residual `z` that is measured in units of the scale. -/
def huberLoss (z t : α) : α :=
  let z := Scalar.abs z
  if z ≤ t then Scalar.half * z * z else t * z - Scalar.half * t * t

/-- The sum of the losses of residuals at a scale. -/
def huberDeviance (residuals : List α) (scale t : α) : α :=
  Scalar.sum (residuals.map fun r => huberLoss (r / scale) t)

/-! ## §3. The scale -/

/-- The median magnitude of a standard normal deviate, to sixteen digits. -/
def normalMedian : α :=
  Scalar.ofNat 6744897501960817 / Scalar.ofNat 10000000000000000

/-- The normalised median magnitude of residuals. -/
def medianScale (residuals : List α) : α :=
  median (residuals.map Scalar.abs) / normalMedian

/-- The magnitude up to which a residual is rounding noise: it grows with the greatest
magnitude of a `y`, and never falls below that of one. -/
def exactFitThreshold (points : List (Point α)) : α :=
  Scalar.rootEpsilon *
    points.foldl (fun m p => Scalar.larger m (Scalar.abs p.y)) Scalar.one

/-- Whether all points lie on the line, up to the threshold. -/
def isExactFit (residuals : List α) (threshold : α) : Bool :=
  residuals.all fun r => decide (Scalar.abs r ≤ threshold)

/-- The scale of residuals, but at least the floor. -/
def robustScale (residuals : List α) (floor : α) : α :=
  Scalar.larger (medianScale residuals) floor

/-! ## §4. The iteration -/

/-- The weights of residuals at a scale. -/
def huberWeights (residuals : List α) (scale t : α) : List α :=
  residuals.map fun r => huberWeight (r / scale) t

/-- One round: the line fitted with the weights that the residuals of a line get. -/
def reweighted (points : List (Point α)) (line : Line α) (scale t : α) :
    Except FitError (Line α) :=
  weightedLeastSquares points (huberWeights (line.residuals points) scale t)

/-- The scale in which the residuals of a line are measured. -/
def Line.scale (line : Line α) (points : List (Point α)) : α :=
  robustScale (line.residuals points) (exactFitThreshold points)

/-- The objective at a line, in its own scale. -/
def Line.deviance (line : Line α) (points : List (Point α)) (t : α) : α :=
  huberDeviance (line.residuals points) (line.scale points) t

/-- Whether all points lie on the line, up to the threshold of the points. -/
def Line.isExact (line : Line α) (points : List (Point α)) : Bool :=
  isExactFit (line.residuals points) (exactFitThreshold points)

/-- Whether the objective has settled between two rounds. -/
def hasSettled (tolerance before after : α) : Bool :=
  decide (Scalar.abs (after - before) ≤
    tolerance * Scalar.larger (Scalar.abs before) Scalar.one)

/-- The rounds after the first fit. `solved` counts the least-squares problems solved so
far, and `left` the rounds that may follow. -/
def refine (points : List (Point α)) (options : RobustOptions α) :
    (left solved : Nat) → (line : Line α) → (scale deviance : α) → Except FitError (LineFit α)
  | 0, _, _, _, _ => .error (.notConverged options.maxIterations)
  | left + 1, solved, line, scale, deviance => do
    let line ← reweighted points line scale options.threshold
    -- The residuals of an exact line are noise and have no scale of their own.
    if line.isExact points then
      return { line with iterations := solved + 1 }
    let scale := line.scale points
    let next := huberDeviance (line.residuals points) scale options.threshold
    if !Scalar.isFinite next then
      throw .nonFinite
    -- Each objective is measured in the scale of its own line.
    if hasSettled options.tolerance deviance next then
      return { line with iterations := solved + 1 }
    refine points options left (solved + 1) line scale next

/-- The robust fit. A plain fit that is exact is kept. -/
def robustFit (points : List (Point α)) (options : RobustOptions α) :
    Except FitError (LineFit α) := do
  let plain ← plainFit points
  if plain.toLine.isExact points then
    return plain
  refine points options options.maxIterations 1 plain.toLine (plain.toLine.scale points)
    (plain.toLine.deviance points options.threshold)

end ProbeGap
