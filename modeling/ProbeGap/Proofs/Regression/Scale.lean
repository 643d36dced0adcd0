import ProbeGap.Proofs.Numeric.LowerBounds
import ProbeGap.Proofs.Regression.OrderStatistic
import ProbeGap.Proofs.Regression.Rounds

/-!
# The scale of residuals

Before a residual is weighed or counted in the objective, it is divided by the scale of all
residuals. The raw scale is a median of magnitudes, so it is zero as soon as more than half of the
points lie on the line (`medianScale_of_majority`), and not a number if the median is none. Neither
ever becomes a divisor. The threshold of the points is a multiple of a running maximum that starts
at one, so it does not fall below the root of the machine epsilon
(`rootEpsilon_le_exactFitThreshold`), and the scale is the larger of the raw scale and the threshold
(`floor_le_robustScale`).

That this reaches every division is a statement about a whole run. The fit is written once more with
a list of the divisions that were made (`recordedFit`). Without the list it is the same fit, and the
list is put together from the residuals of some lines, each divided by the scale of its own line
(`records_recordedFit`). That does not depend on the scalars. The main result is
`robust_scale_stays_positive`.
-/

namespace ProbeGap

/-! ## §1. The threshold and the scale -/

/-- The root of the machine epsilon is a double itself. -/
theorem sqrt_epsilon : Float.sqrt Scalar.epsilon = Scalar.rootEpsilon := by decide +kernel

theorem rootEpsilon_pos : (0 : Float) < Scalar.rootEpsilon := by decide +kernel

/-- The threshold is that of rounding noise at a magnitude of one, or greater. -/
theorem rootEpsilon_le_exactFitThreshold (points : List (Point Float)) :
    Scalar.rootEpsilon ≤ exactFitThreshold points := by
  apply le_mul_of_one_le rootEpsilon_pos (by decide +kernel)
  exact start_le_foldl_larger (fun p : Point Float => Scalar.abs p.y) points (by decide)

theorem exactFitThreshold_pos (points : List (Point Float)) : 0 < exactFitThreshold points :=
  lt_trans_le rootEpsilon_pos (rootEpsilon_le_exactFitThreshold points)

theorem floor_le_robustScale (residuals : List Float) {floor : Float} (h : floor.isNaN = false) :
    floor ≤ robustScale residuals floor :=
  le_larger_right h

/-- Residuals of which more than half vanish have no scale of their own. -/
theorem medianScale_of_majority {residuals : List Float}
    (h : residuals.length < 2 * residuals.countP (· == 0)) : medianScale residuals = 0 := by
  have hleast : ∀ x ∈ residuals.map Scalar.abs, Scalar.totalLe 0 x = true := by
    rw [List.forall_mem_map]
    exact fun r _ => totalLe_zero_abs r
  have hzeros : residuals.countP (· == 0)
      ≤ (residuals.map Scalar.abs).countP (Scalar.totalLe · 0) := by
    rw [List.countP_map]
    apply List.countP_mono_left
    intro r _ hr
    have habs : Scalar.abs r = 0 := abs_eq_zero hr
    show Scalar.totalLe (Scalar.abs r) 0 = true
    rw [habs]
    decide
  have hmany : (residuals.map Scalar.abs).length
      < 2 * (residuals.map Scalar.abs).countP (Scalar.totalLe · 0) := by
    rw [List.length_map]
    omega
  unfold medianScale
  rcases median_of_majority hleast hmany with hzero | hhalf
  · rw [hzero]
    decide +kernel
  · rw [hhalf]
    decide +kernel

/-- Such residuals are measured by the floor. -/
theorem robustScale_of_majority {residuals : List Float} {floor : Float} (hfloor : 0 < floor)
    (h : residuals.length < 2 * residuals.countP (· == 0)) :
    robustScale residuals floor = floor := by
  unfold robustScale
  rw [medianScale_of_majority h]
  exact if_pos hfloor

/-! ## §2. The recorded fit -/

/-- A residual that was divided by a scale. -/
structure Division (α : Type) where
  residual : α
  divisor : α
  deriving DecidableEq

/-- A computation that keeps a list of the divisions it makes. -/
abbrev Recording (α : Type) := StateM (List (Division α))

variable {α : Type} [Scalar α]

/-- Divide a residual by a scale, and record it. -/
def divide (residual divisor : α) : Recording α α := do
  modify (· ++ [⟨residual, divisor⟩])
  return residual / divisor

/-- A function of each residual in units of a scale. -/
def standardised (residuals : List α) (scale : α) (f : α → α) : Recording α (List α) :=
  residuals.mapM fun r => return f (← divide r scale)

/-- `huberDeviance`, with the divisions recorded. -/
def recordedDeviance (residuals : List α) (scale t : α) : Recording α α :=
  return Scalar.sum (← standardised residuals scale (huberLoss · t))

/-- `refine`, with the divisions recorded. -/
def recordedRefine (points : List (Point α)) (options : RobustOptions α) :
    (left solved : Nat) → (line : Line α) → (scale deviance : α) →
      Recording α (Except FitError (LineFit α))
  | 0, _, _, _, _ => return .error (.notConverged options.maxIterations)
  | left + 1, solved, line, scale, deviance => do
    let weights ← standardised (line.residuals points) scale (huberWeight · options.threshold)
    match weightedLeastSquares points weights with
    | .error cause => return .error cause
    | .ok next =>
      if next.isExact points then
        return .ok { next with iterations := solved + 1 }
      else
        let scale := next.scale points
        let settling ← recordedDeviance (next.residuals points) scale options.threshold
        if ¬ Scalar.isFinite settling then
          return .error .nonFinite
        else if hasSettled options.tolerance deviance settling then
          return .ok { next with iterations := solved + 1 }
        else
          recordedRefine points options left (solved + 1) next scale settling

/-- `robustFit`, with the divisions recorded. -/
def recordedFit (points : List (Point α)) (options : RobustOptions α) :
    Recording α (Except FitError (LineFit α)) :=
  match plainFit points with
  | .error cause => return .error cause
  | .ok plain =>
    if plain.toLine.isExact points then
      return .ok plain
    else do
      let scale := plain.toLine.scale points
      let deviance ←
        recordedDeviance (plain.toLine.residuals points) scale options.threshold
      recordedRefine points options options.maxIterations 1 plain.toLine scale deviance

/-! ## §3. What is recorded -/

/-- The residuals of a line, each divided by the scale of that line. -/
def Line.divisions (line : Line α) (points : List (Point α)) : List (Division α) :=
  (line.residuals points).map (⟨·, line.scale points⟩)

/-- A recorded computation gives what a plain one does, and the divisions that it adds to the list
are those of some lines, one line after the other. -/
def Records {β : Type} (points : List (Point α)) (x : Recording α β) (b : β) : Prop :=
  ∃ lines : List (Line α), ∀ log, x.run log = (b, log ++ lines.flatMap (·.divisions points))

namespace Records

variable {β γ : Type} {points : List (Point α)}

theorem pure (b : β) : Records points (Pure.pure b) b :=
  ⟨[], fun log => congrArg (Prod.mk b) (List.append_nil log).symm⟩

theorem bind {x : Recording α β} {b : β} {f : β → Recording α γ} {c : γ}
    (hx : Records points x b) (hf : Records points (f b) c) : Records points (x >>= f) c := by
  obtain ⟨first, hfirst⟩ := hx
  obtain ⟨second, hsecond⟩ := hf
  refine ⟨first ++ second, ?_⟩
  intro log
  rw [StateT.run_bind, hfirst, List.flatMap_append, ← List.append_assoc]
  exact hsecond _

theorem ite {c : Prop} [Decidable c] {x y : Recording α β} {a b : β}
    (hx : c → Records points x a) (hy : ¬ c → Records points y b) :
    Records points (if c then x else y) (if c then a else b) := by
  by_cases h : c
  · rw [if_pos h, if_pos h]
    exact hx h
  · rw [if_neg h, if_neg h]
    exact hy h

end Records

/-- All residuals are divided, in their order. -/
theorem run_standardised (residuals : List α) (scale : α) (f : α → α)
    (log : List (Division α)) :
    (standardised residuals scale f).run log =
      (residuals.map fun r => f (r / scale), log ++ residuals.map (⟨·, scale⟩)) := by
  unfold standardised
  induction residuals generalizing log with
  | nil => exact congrArg (Prod.mk []) (List.append_nil log).symm
  | cons r residuals ih =>
    -- The other divisions are added to a list that ends with the first one.
    have hrest := ih (log ++ [⟨r, scale⟩])
    rw [List.append_assoc] at hrest
    rw [List.mapM_cons]
    exact congrArg (fun run => (f (r / scale) :: run.1, run.2)) hrest

section fit

variable {points : List (Point α)} {options : RobustOptions α} {line : Line α}

theorem records_standardised (f : α → α) :
    Records points (standardised (line.residuals points) (line.scale points) f)
      ((line.residuals points).map fun r => f (r / line.scale points)) := by
  refine ⟨[line], fun log => ?_⟩
  rw [run_standardised, List.flatMap_singleton]
  rfl

theorem records_huberWeights (t : α) :
    Records points (standardised (line.residuals points) (line.scale points) (huberWeight · t))
      (huberWeights (line.residuals points) (line.scale points) t) :=
  records_standardised (huberWeight · t)

theorem records_recordedDeviance (t : α) :
    Records points (recordedDeviance (line.residuals points) (line.scale points) t)
      (line.deviance points t) :=
  (records_standardised (huberLoss · t)).bind (Records.pure _)

/-- Rounds that start with the scale of their line go on with that of the next one. -/
theorem records_recordedRefine (left solved : Nat) (line : Line α) (deviance : α) :
    Records points (recordedRefine points options left solved line (line.scale points) deviance)
      (refine points options left solved line (line.scale points) deviance) := by
  induction left generalizing solved line deviance with
  | zero => exact Records.pure _
  | succ left ih =>
    apply (records_huberWeights options.threshold).bind
    cases hnext : reweighted points line (line.scale points) options.threshold with
    | error cause =>
      have hsolve : weightedLeastSquares points
          (huberWeights (line.residuals points) (line.scale points) options.threshold)
            = .error cause := hnext
      rw [refine_succ_of_error hnext, hsolve]
      exact Records.pure _
    | ok next =>
      have hsolve : weightedLeastSquares points
          (huberWeights (line.residuals points) (line.scale points) options.threshold)
            = .ok next := hnext
      rw [refine_succ hnext, hsolve]
      -- Rounds that end here divide nothing more.
      refine Records.ite (fun _ => Records.pure _) fun _ => ?_
      apply (records_recordedDeviance options.threshold).bind
      refine Records.ite (fun _ => Records.pure _) fun _ => ?_
      refine Records.ite (fun _ => Records.pure _) fun _ => ?_
      exact ih _ next _

end fit

/-- The recorded fit is the robust fit, and its divisions are those of the lines it goes through. -/
theorem records_recordedFit (points : List (Point α)) (options : RobustOptions α) :
    Records points (recordedFit points options) (robustFit points options) := by
  unfold recordedFit
  cases hplain : plainFit points with
  | error cause =>
    rw [robustFit_of_error hplain]
    exact Records.pure _
  | ok plain =>
    by_cases hexact : plain.toLine.isExact points = true
    · rw [robustFit_of_exact hplain hexact]
      dsimp only
      rw [if_pos hexact]
      exact Records.pure _
    · rw [robustFit_of_not_exact hplain hexact]
      dsimp only
      rw [if_neg hexact]
      apply (records_recordedDeviance options.threshold).bind
      exact records_recordedRefine _ _ _ _

/-! ## §4. Divisors -/

/-- The scale of residuals is a number and not below the threshold of the points, which is not below
the root of the machine epsilon. So whenever the robust fit divides a residual, in its first step or
in any round, the divisor is positive: it is the scale of the line that the residual belongs to.
Where more than half of the points lie on a line, its scale is the threshold. -/
theorem robust_scale_stays_positive (points : List (Point Float)) :
    (0 < Float.sqrt Scalar.epsilon ∧ Float.sqrt Scalar.epsilon ≤ exactFitThreshold points) ∧
      (∀ residuals : List Float,
        (robustScale residuals (exactFitThreshold points)).isNaN = false ∧
          exactFitThreshold points ≤ robustScale residuals (exactFitThreshold points)) ∧
      (∀ options : RobustOptions Float, ∃ lines : List (Line Float),
        (recordedFit points options).run [] =
            (robustFit points options, lines.flatMap (·.divisions points)) ∧
          ∀ d ∈ lines.flatMap (·.divisions points), 0 < d.divisor ∧ d.divisor.isNaN = false) ∧
      ∀ line : Line Float, points.length < 2 * points.countP (fun p => line.residual p == 0) →
        line.scale points = exactFitThreshold points := by
  have hthreshold := exactFitThreshold_pos points
  have hfloor : ∀ residuals : List Float,
      exactFitThreshold points ≤ robustScale residuals (exactFitThreshold points) :=
    fun residuals => floor_le_robustScale residuals (isNaN_eq_false_of_lt hthreshold).2
  refine ⟨?_, ?_, ?_, ?_⟩
  · rw [sqrt_epsilon]
    exact ⟨rootEpsilon_pos, rootEpsilon_le_exactFitThreshold points⟩
  · exact fun residuals => ⟨(isNaN_eq_false_of_le (hfloor residuals)).2, hfloor residuals⟩
  · intro options
    obtain ⟨lines, hrun⟩ := records_recordedFit points options
    refine ⟨lines, hrun [], ?_⟩
    intro d hd
    obtain ⟨line, -, hd⟩ := List.mem_flatMap.mp hd
    obtain ⟨r, -, rfl⟩ := List.mem_map.mp hd
    have hpos : 0 < line.scale points := lt_trans_le hthreshold (hfloor _)
    exact ⟨hpos, (isNaN_eq_false_of_lt hpos).2⟩
  · intro line hmany
    apply robustScale_of_majority hthreshold
    unfold Line.residuals
    rw [List.length_map, List.countP_map]
    exact hmany

/-- Nine points, of which the fifth alone is off the line `y = x`. -/
def pointsWithOutlier : List (Point Float) :=
  [⟨1, 1⟩, ⟨2, 2⟩, ⟨3, 3⟩, ⟨4, 4⟩, ⟨5, 40⟩, ⟨6, 6⟩, ⟨7, 7⟩, ⟨8, 8⟩, ⟨9, 9⟩]

/-- One round divides all nine residuals three times, always by something positive, and on the line
`y = x` the other eight points leave no scale but the threshold. -/
theorem pointsWithOutlier_are_scaled :
    ((recordedFit pointsWithOutlier ⟨1, 0, 2⟩).run []).2.length = 27 ∧
      (∀ d ∈ ((recordedFit pointsWithOutlier ⟨1, 0, 2⟩).run []).2, 0 < d.divisor) ∧
      (⟨0, 1⟩ : Line Float).scale pointsWithOutlier = exactFitThreshold pointsWithOutlier := by
  obtain ⟨-, -, hfit, hmajority⟩ := robust_scale_stays_positive pointsWithOutlier
  obtain ⟨lines, hrun, hdivisors⟩ := hfit ⟨1, 0, 2⟩
  refine ⟨by decide +kernel, ?_, hmajority ⟨0, 1⟩ (by decide +kernel)⟩
  rw [hrun]
  exact fun d hd => (hdivisors d hd).1

end ProbeGap
