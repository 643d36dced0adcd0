import ProbeGap.Sample

/-!
# Lines and least squares

A line `y = intercept + slope * x` is fitted to weighted points by least squares, with
sums centred on the weighted means. The plain fit gives every point the weight one.

## Contents

  * `Line`, its residuals and the place where it crosses `y = 1`.
  * `FitError`: the five ways in which a fit can fail, each with its message.
  * `checkDesign`: a fit needs points with at least two distinct values of `x`.
  * `weightedLeastSquares`: the line, unless the weights or their spread vanish.
  * `plainFit`: the fit with unit weights.
-/

namespace ProbeGap

/-! ## §1. Lines -/

/-- A line of the plane. -/
structure Line (α : Type) where
  intercept : α
  slope : α
  deriving DecidableEq

/-- A fitted line and the number of least-squares problems solved for it. -/
structure LineFit (α : Type) extends Line α where
  iterations : Nat
  deriving DecidableEq

/-- Why no line could be fitted. -/
inductive FitError where
  /-- There are no points. -/
  | empty
  /-- The points have fewer than two distinct values of `x`. -/
  | insufficientSpread (distinct : Nat)
  /-- The weights vanish, or the weighted spread of `x` is that of rounding noise. -/
  | singular
  /-- A coefficient or the objective left the range of numbers. -/
  | nonFinite
  /-- The iteration reached its limit. -/
  | notConverged (iterations : Nat)
  deriving DecidableEq

variable {α : Type} [Scalar α]

/-- How far a point lies above the line. -/
def Line.residual (l : Line α) (p : Point α) : α :=
  p.y - (l.intercept + l.slope * p.x)

/-- The residuals of a list of points. -/
def Line.residuals (l : Line α) (points : List (Point α)) : List α :=
  points.map l.residual

/-- The `x` at which the line crosses `y = 1`. -/
def Line.unitCrossing (l : Line α) : α :=
  (Scalar.one - l.intercept) / l.slope

/-! ## §2. The design -/

/-- Drop each value that equals the one kept before it. -/
def dropRepeats : List α → List α
  | [] => []
  | x :: rest => x :: after x rest
where
  after (last : α) : List α → List α
    | [] => []
    | x :: rest => if Scalar.equal last x then after last rest else x :: after x rest

/-- The number of distinct values of `x`. -/
def distinctCount (points : List (Point α)) : Nat :=
  (dropRepeats (Scalar.sort (points.map (·.x)))).length

/-- Points can carry a line if there are any and their values of `x` differ. -/
def checkDesign (points : List (Point α)) : Except FitError Unit :=
  if points.isEmpty then .error .empty
  else if distinctCount points < 2 then .error (.insufficientSpread (distinctCount points))
  else .ok ()

/-! ## §3. Weighted least squares -/

/-- The sum of a function of point and weight over all points, from left to right. -/
def weightedSum (pairs : List (Point α × α)) (term : Point α → α → α) : α :=
  pairs.foldl (fun acc pw => acc + term pw.1 pw.2) Scalar.zero

/-- The greatest magnitude of an `x`. -/
def reach (points : List (Point α)) : α :=
  points.foldl (fun m p => Scalar.larger m (Scalar.abs p.x)) Scalar.zero

/-- The line that minimises the weighted sum of squared residuals. -/
def weightedLeastSquares (points : List (Point α)) (weights : List α) :
    Except FitError (Line α) :=
  let total := Scalar.sum weights
  -- Written so that a total that is not a number fails, too.
  if ¬ Scalar.zero < total then .error .singular
  else
    let pairs := points.zip weights
    let meanX := weightedSum pairs (fun p w => w * p.x) / total
    let meanY := weightedSum pairs (fun p w => w * p.y) / total
    let sxx := weightedSum pairs fun p w => w * (p.x - meanX) * (p.x - meanX)
    let sxy := weightedSum pairs fun p w => w * (p.x - meanX) * (p.y - meanY)
    -- A spread that is no greater than the rounding noise of the largest `x` is none.
    let noise := Scalar.epsilon * reach points
    if ¬ noise * noise * total < sxx then .error .singular
    else
      let slope := sxy / sxx
      let intercept := meanY - slope * meanX
      if Scalar.isFinite slope && Scalar.isFinite intercept then .ok ⟨intercept, slope⟩
      else .error .nonFinite

/-- The weight one for every point. -/
def unitWeights (points : List (Point α)) : List α :=
  points.map fun _ => Scalar.one

/-- The least-squares fit with unit weights. -/
def plainFit (points : List (Point α)) : Except FitError (LineFit α) := do
  checkDesign points
  let line ← weightedLeastSquares points (unitWeights points)
  return { line with iterations := 1 }

end ProbeGap
