import ProbeGap.Proofs.Fallible
import ProbeGap.Regression.Line

/-!
# What the fits reject

A fit fails before it computes anything if there are no points, or if their values of `x` are all
the same. The values are sorted and each that repeats the one before it is dropped, so one is left
exactly if all others equal it (`after_eq_nil_iff`). Which one comes first does not matter, and
neither does the order in which they are sorted.

Behind that check a plain fit fails only for lack of spread, or because a coefficient is out of
range (`plainFit_eq_error`), so the coefficients it returns are finite. Here nothing is assumed of
the scalars, except that the values of `x` compare with themselves where that is needed.
-/

namespace ProbeGap

variable {α : Type} [Scalar α] {points : List (Point α)}

/-! ## §1. Distinct values -/

/-- Nothing is kept after a value exactly if all that follow equal it. -/
theorem after_eq_nil_iff {last : α} {xs : List α} :
    dropRepeats.after last xs = [] ↔ ∀ x ∈ xs, Scalar.equal last x = true := by
  induction xs with
  | nil =>
    constructor
    · intro _ x hx
      cases hx
    · exact fun _ => rfl
  | cons y ys ih =>
    rw [List.forall_mem_cons]
    unfold dropRepeats.after
    by_cases hequal : Scalar.equal last y = true
    · rw [if_pos hequal, ih]
      exact (and_iff_right hequal).symm
    · rw [if_neg hequal]
      constructor
      · intro h
        cases h
      · exact fun h => absurd h.1 hequal

/-- The sorted values of `x` are those of a point `p` and of others, and none is missing. -/
theorem exists_sorted (h : points ≠ []) :
    ∃ p ∈ points, ∃ rest, Scalar.sort (points.map (·.x)) = p.x :: rest ∧
      (∀ q ∈ points, q.x = p.x ∨ q.x ∈ rest) ∧ ∀ x ∈ rest, ∃ q ∈ points, q.x = x := by
  have hmem : ∀ x, x ∈ Scalar.sort (points.map (·.x)) ↔ ∃ q ∈ points, q.x = x := by
    intro x
    unfold Scalar.sort
    rw [(sortBy_perm _ _).mem_iff, List.mem_map]
  cases hsorted : Scalar.sort (points.map (·.x)) with
  | nil =>
    obtain ⟨p, hp⟩ := List.exists_mem_of_ne_nil _ h
    have hnil := (hmem p.x).mpr ⟨p, hp, rfl⟩
    rw [hsorted] at hnil
    cases hnil
  | cons x rest =>
    rw [hsorted] at hmem
    obtain ⟨p, hp, rfl⟩ := (hmem x).mp List.mem_cons_self
    refine ⟨p, hp, rest, rfl, ?_, ?_⟩
    · intro q hq
      exact List.mem_cons.mp ((hmem q.x).mpr ⟨q, hq, rfl⟩)
    · intro x hx
      exact (hmem x).mp (List.mem_cons_of_mem _ hx)

theorem distinctCount_pos (h : points ≠ []) : 0 < distinctCount points := by
  obtain ⟨p, -, rest, hsorted, -, -⟩ := exists_sorted h
  unfold distinctCount
  rw [hsorted]
  exact Nat.succ_pos _

/-- Fewer than two distinct values are one that all others equal. -/
theorem exists_same_of_distinctCount_lt (hne : points ≠ [])
    (hself : ∀ p ∈ points, Scalar.equal p.x p.x = true) (h : distinctCount points < 2) :
    ∃ p ∈ points, ∀ q ∈ points, Scalar.equal p.x q.x = true := by
  obtain ⟨p, hp, rest, hsorted, hcovered, -⟩ := exists_sorted hne
  unfold distinctCount at h
  rw [hsorted] at h
  have hafter : dropRepeats.after p.x rest = [] := by
    rw [← List.length_eq_zero_iff]
    unfold dropRepeats at h
    rw [List.length_cons] at h
    omega
  refine ⟨p, hp, fun q hq => ?_⟩
  rcases hcovered q hq with heq | htail
  · rw [heq]
    exact hself p hp
  · exact after_eq_nil_iff.mp hafter q.x htail

/-- Values that all equal each other are fewer than two. -/
theorem distinctCount_lt_of_same
    (h : ∀ p ∈ points, ∀ q ∈ points, Scalar.equal p.x q.x = true) : distinctCount points < 2 := by
  by_cases hne : points = []
  · rw [hne]
    exact Nat.two_pos
  · obtain ⟨p, hp, rest, hsorted, -, horigin⟩ := exists_sorted hne
    have hafter : dropRepeats.after p.x rest = [] := by
      rw [after_eq_nil_iff]
      intro x hx
      obtain ⟨q, hq, rfl⟩ := horigin x hx
      exact h p hp q hq
    unfold distinctCount
    rw [hsorted]
    show (p.x :: dropRepeats.after p.x rest).length < 2
    rw [hafter]
    exact Nat.one_lt_two

/-! ## §2. The check of the design -/

/-- The check of the design fails for no points, or for a single value of `x`. -/
theorem checkDesign_eq_error_iff {cause : FitError} :
    checkDesign points = .error cause ↔
      (points = [] ∧ cause = .empty) ∨
        (points ≠ [] ∧ distinctCount points < 2 ∧ cause = .insufficientSpread 1) := by
  unfold checkDesign
  by_cases hempty : points = []
  · subst hempty
    constructor
    · intro h
      cases h
      exact Or.inl ⟨rfl, rfl⟩
    · rintro (⟨-, rfl⟩ | ⟨hne, -, -⟩)
      · rfl
      · exact absurd rfl hne
  · rw [if_neg (mt List.isEmpty_iff.mp hempty)]
    by_cases hfew : distinctCount points < 2
    · have hpos := distinctCount_pos hempty
      have hone : distinctCount points = 1 := by omega
      rw [if_pos hfew, hone]
      constructor
      · intro h
        cases h
        exact Or.inr ⟨hempty, Nat.one_lt_two, rfl⟩
      · rintro (⟨hnil, -⟩ | ⟨-, -, rfl⟩)
        · exact absurd hnil hempty
        · rfl
    · rw [if_neg hfew]
      constructor
      · intro h
        cases h
      · rintro (⟨hnil, -⟩ | ⟨-, hlt, -⟩)
        · exact absurd hnil hempty
        · exact absurd hlt hfew

theorem checkDesign_eq_error {cause : FitError} (h : checkDesign points = .error cause) :
    cause = .empty ∨ cause = .insufficientSpread 1 := by
  rcases checkDesign_eq_error_iff.mp h with ⟨-, hcause⟩ | ⟨-, -, hcause⟩
  · exact Or.inl hcause
  · exact Or.inr hcause

/-! ## §3. Least squares -/

/-- Least squares fail for lack of weight or spread, or with a coefficient out of range. -/
theorem weightedLeastSquares_eq_error {weights : List α} {cause : FitError}
    (h : weightedLeastSquares points weights = .error cause) :
    cause = .singular ∨ cause = .nonFinite := by
  unfold weightedLeastSquares at h
  dsimp only at h
  split at h
  · cases h
    exact Or.inl rfl
  · split at h
    · cases h
      exact Or.inl rfl
    · split at h
      · cases h
      · cases h
        exact Or.inr rfl

/-- A line that least squares return has finite coefficients. -/
theorem isFinite_of_weightedLeastSquares {weights : List α} {line : Line α}
    (h : weightedLeastSquares points weights = .ok line) :
    Scalar.isFinite line.slope = true ∧ Scalar.isFinite line.intercept = true := by
  unfold weightedLeastSquares at h
  dsimp only at h
  split at h
  · cases h
  · split at h
    · cases h
    · split at h
      · next hfinite =>
        cases h
        exact Bool.and_eq_true_iff.mp hfinite
      · cases h

/-- The line solves the least-squares problem of the points with some weights. -/
def Solves (points : List (Point α)) (line : Line α) : Prop :=
  ∃ weights, weightedLeastSquares points weights = .ok line

theorem Solves.isFinite {line : Line α} (h : Solves points line) :
    Scalar.isFinite line.slope = true ∧ Scalar.isFinite line.intercept = true := by
  obtain ⟨weights, hline⟩ := h
  exact isFinite_of_weightedLeastSquares hline

/-! ## §4. Plain fits -/

/-- A plain fit has solved one problem, that of unit weights. -/
theorem plainFit_eq_ok_iff {fit : LineFit α} :
    plainFit points = .ok fit ↔
      checkDesign points = .ok () ∧
        weightedLeastSquares points (unitWeights points) = .ok fit.toLine ∧
        fit.iterations = 1 := by
  unfold plainFit
  rw [bind_eq_ok_iff]
  constructor
  · rintro ⟨⟨⟩, hcheck, h⟩
    obtain ⟨line, hline, hfit⟩ := bind_eq_ok_iff.mp h
    cases hfit
    exact ⟨hcheck, hline, rfl⟩
  · rintro ⟨hcheck, hline, hone⟩
    refine ⟨(), hcheck, bind_eq_ok_iff.mpr ⟨fit.toLine, hline, ?_⟩⟩
    rw [← hone]
    rfl

theorem solves_of_plainFit_eq_ok {fit : LineFit α} (h : plainFit points = .ok fit) :
    Solves points fit.toLine :=
  ⟨_, (plainFit_eq_ok_iff.mp h).2.1⟩

/-- A plain fit fails in the check of the design, or in its least squares. -/
theorem plainFit_eq_error {cause : FitError} (h : plainFit points = .error cause) :
    checkDesign points = .error cause ∨ cause = .singular ∨ cause = .nonFinite := by
  unfold plainFit at h
  rcases bind_eq_error_iff.mp h with hcheck | ⟨-, -, h⟩
  · exact Or.inl hcheck
  · rcases bind_eq_error_iff.mp h with hsquares | ⟨line, -, h⟩
    · exact Or.inr (weightedLeastSquares_eq_error hsquares)
    · cases h

theorem plainFit_of_checkDesign {cause : FitError} (h : checkDesign points = .error cause) :
    plainFit points = .error cause := by
  unfold plainFit
  rw [h]
  rfl

/-- The errors of the design are those of its check. -/
theorem plainFit_eq_error_iff {cause : FitError} (hsingular : cause ≠ .singular)
    (hnonFinite : cause ≠ .nonFinite) :
    plainFit points = .error cause ↔ checkDesign points = .error cause := by
  constructor
  · intro h
    rcases plainFit_eq_error h with hcheck | rfl | rfl
    · exact hcheck
    · exact absurd rfl hsingular
    · exact absurd rfl hnonFinite
  · exact plainFit_of_checkDesign

end ProbeGap
