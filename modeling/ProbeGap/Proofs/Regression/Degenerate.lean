import ProbeGap.Proofs.Numeric.Exceptions
import ProbeGap.Proofs.Regression.Rounds

/-!
# Points that carry no line

The check of the design counts distinct values of `x`, and not-a-number is distinct from
everything, so it passes the count. What rejects it, and the infinities, is the arithmetic behind
the count: each coordinate enters a mean, the means enter the intercept, and an exception that
has entered a sum, a product or a dividend is never lost again. A line is only returned with
finite coefficients, so all coordinates it was fitted to were finite
(`isFinite_of_plainFit`). The weights need not be looked at.

Among numbers the count does what it says: fewer than two values of `x` are distinct exactly if
all are numerically equal (`distinctCount_lt_two_iff`), where the two zeros are one value.

`fits_reject_degenerate` states both for either fit. As all coordinates are finite, residuals
may overflow but are never not-a-number (`isNaN_residual`).
-/

namespace ProbeGap

/-- Both coordinates of the point are finite. -/
def Point.IsFinite (p : Point Float) : Prop :=
  p.x.isFinite = true ∧ p.y.isFinite = true

instance (p : Point Float) : Decidable p.IsFinite :=
  inferInstanceAs (Decidable (_ ∧ _))

variable {points : List (Point Float)}

/-! ## §1. Finite points -/

/-- A running sum that ends as a finite number was finite all the way, and so were its terms. -/
theorem isFinite_of_foldl_add {β : Type} {term : β → Float} {xs : List β} {start : Float}
    (h : (xs.foldl (fun acc x => acc + term x) start).isFinite = true) :
    start.isFinite = true ∧ ∀ x ∈ xs, (term x).isFinite = true := by
  induction xs generalizing start with
  | nil =>
    refine ⟨h, fun x hx => ?_⟩
    cases hx
  | cons x xs ih =>
    obtain ⟨hsum, hterms⟩ := ih h
    obtain ⟨hstart, hterm⟩ := isFinite_of_add hsum
    exact ⟨hstart, List.forall_mem_cons.mpr ⟨hterm, hterms⟩⟩

/-- The intercept of a line is made of the two means, which are finite if it is. -/
theorem exists_means_of_weightedLeastSquares {weights : List Float} {line : Line Float}
    (h : weightedLeastSquares points weights = .ok line) :
    ∃ total : Float,
      (weightedSum (points.zip weights) (fun p w => w * p.x) / total).isFinite = true ∧
      (weightedSum (points.zip weights) (fun p w => w * p.y) / total).isFinite = true := by
  have hintercept : line.intercept.isFinite = true := (isFinite_of_weightedLeastSquares h).2
  unfold weightedLeastSquares at h
  dsimp only at h
  split at h
  · cases h
  · split at h
    · cases h
    · split at h
      · cases h
        obtain ⟨hmeanY, hproduct⟩ := isFinite_of_sub hintercept
        exact ⟨_, (isFinite_of_mul hproduct).2, hmeanY⟩
      · cases h

/-- Least squares return a line only for finite points, as far as they have weights. -/
theorem isFinite_of_weightedLeastSquares_of_mem {weights : List Float} {line : Line Float}
    (h : weightedLeastSquares points weights = .ok line) {pw : Point Float × Float}
    (hpw : pw ∈ points.zip weights) : pw.1.IsFinite := by
  obtain ⟨total, hmeanX, hmeanY⟩ := exists_means_of_weightedLeastSquares h
  have hx := (isFinite_of_foldl_add (isFinite_of_div hmeanX)).2 pw hpw
  have hy := (isFinite_of_foldl_add (isFinite_of_div hmeanY)).2 pw hpw
  exact ⟨(isFinite_of_mul hx).2, (isFinite_of_mul hy).2⟩

/-- Unit weights are weights of all points. -/
theorem isFinite_of_plainFit {fit : LineFit Float} (h : plainFit points = .ok fit) :
    ∀ p ∈ points, p.IsFinite := by
  intro p hp
  have hweighted : (p, (Scalar.one : Float)) ∈ points.zip (unitWeights points) := by
    unfold unitWeights
    rw [← List.map_prod_left_eq_zip]
    exact List.mem_map_of_mem hp
  obtain ⟨-, hsquares, -⟩ := plainFit_eq_ok_iff.mp h
  have hfinite := isFinite_of_weightedLeastSquares_of_mem hsquares hweighted
  exact hfinite

/-- The residual of a finite point from a finite line may be an infinity, but is a number. -/
theorem isNaN_residual {p : Point Float} {line : Line Float} (hp : p.IsFinite)
    (hslope : line.slope.isFinite = true) (hintercept : line.intercept.isFinite = true) :
    (line.residual p).isNaN = false := by
  have hproduct : (line.slope * p.x).isNaN = false := isNaN_mul hslope hp.1
  exact isNaN_sub hp.2 (isNaN_add hintercept hproduct)

/-! ## §2. Values of `x` -/

theorem equal_iff_beq {x y : Float} (hx : x.isNaN = false) (hy : y.isNaN = false) :
    Scalar.equal x y = true ↔ (x == y) = true := by
  have hle : Scalar.equal x y = true ↔ x ≤ y ∧ y ≤ x := by
    unfold Scalar.equal
    rw [Bool.and_eq_true_iff, decide_eq_true_iff, decide_eq_true_iff]
  rw [hle, beq_iff_orderKey hx hy, le_iff_orderKey hx hy, le_iff_orderKey hy hx]
  exact Int.le_antisymm_iff.symm

/-- Among numbers, fewer than two values are distinct exactly if all are numerically equal. -/
theorem distinctCount_lt_two_iff (hne : points ≠ [])
    (hnumbers : ∀ p ∈ points, p.x.isNaN = false) :
    distinctCount points < 2 ↔ ∀ p ∈ points, ∀ q ∈ points, (p.x == q.x) = true := by
  constructor
  · intro hfew
    have hself : ∀ p ∈ points, Scalar.equal p.x p.x = true := by
      intro p hp
      rw [equal_iff_beq (hnumbers p hp) (hnumbers p hp),
        beq_iff_orderKey (hnumbers p hp) (hnumbers p hp)]
    obtain ⟨first, hfirst, hall⟩ := exists_same_of_distinctCount_lt hne hself hfew
    -- All have the key of the first, so any two have the same key.
    have hkey : ∀ p ∈ points, orderKey first.x = orderKey p.x := by
      intro p hp
      rw [← beq_iff_orderKey (hnumbers first hfirst) (hnumbers p hp),
        ← equal_iff_beq (hnumbers first hfirst) (hnumbers p hp)]
      exact hall p hp
    intro p hp q hq
    rw [beq_iff_orderKey (hnumbers p hp) (hnumbers q hq), ← hkey p hp, hkey q hq]
  · intro hsame
    apply distinctCount_lt_of_same
    intro p hp q hq
    rw [equal_iff_beq (hnumbers p hp) (hnumbers q hq)]
    exact hsame p hp q hq

/-- The two zeros count as one, and not-a-number counts each time. -/
example : distinctCount [⟨0, 1⟩, ⟨-0, 2⟩, ⟨0, (3 : Float)⟩] = 1 ∧
    distinctCount [⟨0 / 0, 1⟩, ⟨0 / 0, (2 : Float)⟩] = 2 := by
  decide +kernel

/-! ## §3. Either fit -/

/-- What the result of a fit is if the points are degenerate. -/
structure RejectsDegenerate (points : List (Point Float))
    (result : Except FitError (LineFit Float)) : Prop where
  /-- An infinity or not-a-number among the coordinates is an error. -/
  exception : (∃ p ∈ points, ¬ p.IsFinite) → ∃ cause, result = .error cause
  /-- Among numbers, a lack of distinct values of `x` is one numeric value for all points. -/
  insufficient_iff : (∀ p ∈ points, p.x.isNaN = false) →
    ((∃ distinct, result = .error (.insufficientSpread distinct)) ↔
      points ≠ [] ∧ ∀ p ∈ points, ∀ q ∈ points, (p.x == q.x) = true)
  /-- A line is fitted to finite points only, two of which differ in `x`. -/
  fitted : ∀ fit, result = .ok fit →
    (∀ p ∈ points, p.IsFinite) ∧ ∃ p ∈ points, ∃ q ∈ points, (p.x == q.x) = false

/-- It is enough that there is a plain fit wherever there is a line, and that the errors of the
design are those of its check. -/
theorem rejectsDegenerate {result : Except FitError (LineFit Float)}
    (hplain : ∀ fit, result = .ok fit → ∃ plain, plainFit points = .ok plain)
    (hdesign : ∀ distinct, result = .error (.insufficientSpread distinct) ↔
      checkDesign points = .error (.insufficientSpread distinct)) :
    RejectsDegenerate points result := by
  have hinsufficient : (∀ p ∈ points, p.x.isNaN = false) →
      ((∃ distinct, result = .error (.insufficientSpread distinct)) ↔
        points ≠ [] ∧ ∀ p ∈ points, ∀ q ∈ points, (p.x == q.x) = true) := by
    intro hnumbers
    constructor
    · rintro ⟨distinct, h⟩
      rw [hdesign, checkDesign_eq_error_iff] at h
      rcases h with ⟨-, hcause⟩ | ⟨hne, hfew, -⟩
      · cases hcause
      · exact ⟨hne, (distinctCount_lt_two_iff hne hnumbers).mp hfew⟩
    · rintro ⟨hne, hsame⟩
      refine ⟨1, ?_⟩
      rw [hdesign, checkDesign_eq_error_iff]
      exact Or.inr ⟨hne, (distinctCount_lt_two_iff hne hnumbers).mpr hsame, rfl⟩
  have hfinite : ∀ fit, result = .ok fit → ∀ p ∈ points, p.IsFinite := by
    intro fit hfit
    obtain ⟨plain, hplain⟩ := hplain fit hfit
    exact isFinite_of_plainFit hplain
  refine ⟨?_, hinsufficient, ?_⟩
  · rintro ⟨p, hp, hexception⟩
    cases result with
    | error cause => exact ⟨cause, rfl⟩
    | ok fit => exact absurd (hfinite fit rfl p hp) hexception
  · intro fit hfit
    refine ⟨hfinite fit hfit, ?_⟩
    have hnumbers : ∀ p ∈ points, p.x.isNaN = false :=
      fun p hp => isNaN_eq_false_of_isFinite (hfinite fit hfit p hp).1
    have hne : points ≠ [] := by
      intro hnil
      obtain ⟨plain, hplain⟩ := hplain fit hfit
      have hempty := plainFit_of_checkDesign (checkDesign_eq_error_iff.mpr (Or.inl ⟨hnil, rfl⟩))
      rw [hplain] at hempty
      cases hempty
    -- If no two points differed, the result would be the error.
    apply Classical.byContradiction
    intro hnone
    have hsame : ∀ p ∈ points, ∀ q ∈ points, (p.x == q.x) = true := by
      intro p hp q hq
      cases hpq : p.x == q.x with
      | true => rfl
      | false => exact absurd ⟨p, hp, q, hq, hpq⟩ hnone
    obtain ⟨distinct, herror⟩ := (hinsufficient hnumbers).mpr ⟨hne, hsame⟩
    rw [hfit] at herror
    cases herror

/-- Neither fit, under any options, turns degenerate points into a line. -/
theorem fits_reject_degenerate (points : List (Point Float)) (options : RobustOptions Float) :
    RejectsDegenerate points (plainFit points) ∧
      RejectsDegenerate points (robustFit points options) := by
  constructor
  · exact rejectsDegenerate (fun fit hfit => ⟨fit, hfit⟩)
      fun distinct => plainFit_eq_error_iff nofun nofun
  · exact rejectsDegenerate (fun fit hfit => exists_plainFit_of_robustFit hfit)
      fun distinct => robustFit_eq_error_iff nofun nofun fun _ => nofun

end ProbeGap
