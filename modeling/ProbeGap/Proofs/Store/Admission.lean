import ProbeGap.Proofs.Estimate.Accounting
import ProbeGap.Proofs.Numeric.Quotients
import ProbeGap.Proofs.Store.Cut

/-!
# The two admission tests of a sample

A sample is tested twice on its way into a fit. Marking asks for a positive input gap and for
rates below the capacity. The fit asks for a point: it passes over samples whose input gap is too
near to zero, and those without finite coordinates. The two tests are written with different
guards, and neither implies the other.

What they have in common is proved for every query that a valid configuration can ask. A flagged
sample has a finite positive input gap and a rate that is finite, not negative and below the
capacity. Its output gap, however, is only bounded from below by the capacity if it is positive. A
gap with the sign of a negative number has a negative rate, which every capacity is above, and the
zero with that sign is no exception. So the filter keeps out one of the two zeros and nothing that
is below them (`passesFilter_iff`).

The fit passes over a flagged sample exactly if its input gap is below `epsilon` or the ratio of
its gaps overflows. Where packets have at least one byte, a guard on both gaps, with the `epsilon`
that the fit uses for one of them, makes every flagged sample physically possible
(`isPossible_of_guarded`).
-/

namespace ProbeGap

/-! ## §1. Samples -/

/-- Whether a number has the sign of a negative one, as one of the two zeros has. -/
def IsNegative (x : Float) : Prop :=
  x.isNaN = false ∧ signOf x = .negative

/-- What a flagged sample should be: physically possible, and with a point in the fit. -/
structure Sample.IsPossible (q : CandidateQuery Float) (s : Sample Float) : Prop where
  gin_pos : 0 < s.gin
  gout_pos : 0 < s.gout
  point : ∃ p, s.features? = some p ∧ 0 < p.x ∧ p.x < q.maxCapacity ∧ 0 < p.y

/-- Whether the fit passes over a sample with a positive input gap: the gap is too near to zero, or
the ratio of the gaps is not finite. -/
def Sample.IsPassedOver (s : Sample Float) : Prop :=
  s.gin < Scalar.epsilon ∨ (s.gout / s.gin).isFinite = false

instance (s : Sample Float) : Decidable s.IsPassedOver :=
  inferInstanceAs (Decidable (_ ∨ _))

/-- Both gaps are guarded as the fit guards the input gap, and are not longer than the inverse of
that guard. -/
structure Sample.HasGuardedGaps (s : Sample Float) : Prop where
  gin_ge : Scalar.epsilon ≤ s.gin
  gin_le : s.gin ≤ Scalar.one / Scalar.epsilon
  gout_ge : Scalar.epsilon ≤ s.gout
  gout_le : s.gout ≤ Scalar.one / Scalar.epsilon

/-- A query that a valid configuration can ask. -/
structure CandidateQuery.IsProper (q : CandidateQuery Float) : Prop where
  size_pos : 0 < q.packetSize
  confidence_pos : 0 < q.minConfidence
  confidence_le_one : q.minConfidence ≤ 1
  capacity_pos : 0 < q.maxCapacity
  capacity_finite : q.maxCapacity.isFinite = true

/-! ## §2. The physical filter -/

section filter

variable {q : CandidateQuery Float} (hq : q.IsProper) {s : Sample Float}
include hq

theorem CandidateQuery.IsProper.length_pos (h : q.packetSize ≤ s.length) : 0 < s.length :=
  lt_trans_le hq.size_pos h

/-- A rate is below the capacity if the gap is large enough, or has the sign of a negative
number. -/
theorem rate_lt_iff {gap : Float} (hlength : 0 < s.length) (hfinite : s.length.isFinite = true) :
    s.length / gap < q.maxCapacity ↔
      (0 < gap ∧ s.length / gap < q.maxCapacity) ∨ IsNegative gap := by
  constructor
  · intro hrate
    have hgap := isNaN_of_div (isNaN_eq_false_of_lt hrate).1
    by_cases hsign : signOf gap = .positive
    · -- Of the gaps without a sign only the zero is not positive, and its rate is infinite.
      rcases pos_or_eq_zero hgap hsign with hpos | hzero
      · exact Or.inl ⟨hpos, hrate⟩
      · rw [hzero] at hrate
        exact absurd hrate (not_div_zero_lt hlength)
    · exact Or.inr ⟨hgap, Sign.eq_negative hsign⟩
  · intro h
    rcases h with hlarge | hnegative
    · exact hlarge.2
    · -- The rate has the sign of the gap, so it is below zero or a zero.
      have hside := onSide_div hlength (isNaN_div hlength hfinite hnegative.1)
      rw [hnegative.2] at hside
      exact lt_of_onSide_negative hside hq.capacity_pos

/-- The filter asks for a positive input gap, but not for a positive output gap. -/
theorem passesFilter_iff :
    s.PassesFilter q ↔ 0 < s.gin ∧ q.packetSize ≤ s.length ∧
      s.length / s.gin < q.maxCapacity ∧
      ((0 < s.gout ∧ s.length / s.gout < q.maxCapacity) ∨ IsNegative s.gout) := by
  constructor
  · intro h
    have hlength := hq.length_pos h.long_enough
    have hfinite := isFinite_of_div (isFinite_div_of_lt hlength h.gin_pos h.input_rate)
    exact ⟨h.gin_pos, h.long_enough, h.input_rate,
      (rate_lt_iff hq hlength hfinite).mp h.output_rate⟩
  · intro h
    obtain ⟨hgin, hlong, hinput, houtput⟩ := h
    have hlength := hq.length_pos hlong
    have hfinite := isFinite_of_div (isFinite_div_of_lt hlength hgin hinput)
    exact ⟨hgin, hlong, hinput, (rate_lt_iff hq hlength hfinite).mpr houtput⟩

end filter

/-! ## §3. The point of a sample -/

/-- Of samples with a positive input gap and a finite rate the fit takes all but those that it
passes over. -/
theorem Sample.features?_of_pos {s : Sample Float} (hgin : 0 < s.gin)
    (hginFinite : s.gin.isFinite = true) (hrate : (s.length / s.gin).isFinite = true) :
    s.features? = if s.IsPassedOver then none else some ⟨s.length / s.gin, s.gout / s.gin⟩ := by
  have hguard : s.gin.abs < Scalar.epsilon ↔ s.gin < Scalar.epsilon := by
    have hnumber := (isNaN_eq_false_of_lt hgin).2
    rw [lt_iff_orderKey (isNaN_abs hnumber) (by decide +kernel),
      lt_iff_orderKey hnumber (by decide +kernel), orderKey_abs_of_pos hgin]
  have hfirst : (¬ Scalar.isFinite s.gin = true ∨ Scalar.abs s.gin < Scalar.epsilon) ↔
      s.gin < Scalar.epsilon := by
    rw [← hguard]
    exact or_iff_right (not_not_intro hginFinite)
  have hrate' : Scalar.isFinite (s.length / s.gin) = true := hrate
  unfold Sample.features?
  by_cases hnear : s.gin < Scalar.epsilon
  · have hpassed : s.IsPassedOver := Or.inl hnear
    rw [if_pos (hfirst.mpr hnear), if_pos hpassed]
  · rw [if_neg (mt hfirst.mp hnear)]
    dsimp only
    rw [hrate', Bool.true_and]
    cases hratio : (s.gout / s.gin).isFinite with
    | false =>
      have hratio' : ¬ Scalar.isFinite (s.gout / s.gin) = true := ne_true_of_eq_false hratio
      have hpassed : s.IsPassedOver := Or.inr hratio
      rw [if_neg hratio', if_pos hpassed]
    | true =>
      have hratio' : Scalar.isFinite (s.gout / s.gin) = true := hratio
      have hkept : ¬ s.IsPassedOver := by
        intro hpassed
        rcases hpassed with hnear' | hinfinite
        · exact hnear hnear'
        · exact Bool.noConfusion (hratio.symm.trans hinfinite)
      rw [if_pos hratio', if_neg hkept]

/-- A positive output gap, a point, and coordinates that are not rounded to zero make a sample
possible whose rate is below the capacity. -/
theorem Sample.isPossible_iff {q : CandidateQuery Float} {s : Sample Float} (hgin : 0 < s.gin)
    (hrate : s.length / s.gin < q.maxCapacity)
    (hfeatures : s.features? =
      if s.IsPassedOver then none else some ⟨s.length / s.gin, s.gout / s.gin⟩) :
    s.IsPossible q ↔
      0 < s.gout ∧ ¬ s.IsPassedOver ∧ 0 < s.length / s.gin ∧ 0 < s.gout / s.gin := by
  constructor
  · intro hpossible
    obtain ⟨-, hgout, p, hp, hx, -, hy⟩ := hpossible
    rw [hfeatures] at hp
    by_cases hpassed : s.IsPassedOver
    · rw [if_pos hpassed] at hp
      cases hp
    · rw [if_neg hpassed] at hp
      cases hp
      exact ⟨hgout, hpassed, hx, hy⟩
  · intro h
    obtain ⟨hgout, hpassed, hx, hy⟩ := h
    rw [if_neg hpassed] at hfeatures
    exact ⟨hgin, hgout, _, hfeatures, hx, hrate, hy⟩

/-- The places of guarded gaps. -/
theorem place_mem_of_guarded {gap : Float} (hge : Scalar.epsilon ≤ gap)
    (hle : gap ≤ Scalar.one / Scalar.epsilon) :
    0 < gap ∧ gap.isFinite = true ∧ -51 ≤ place gap ∧ place gap ≤ 53 := by
  have hepsilon : (0 : Float) < Scalar.epsilon := by decide +kernel
  have hinverse : (Scalar.one / Scalar.epsilon : Float).isFinite = true := by decide +kernel
  have hpos := lt_trans_le hepsilon hge
  have hfinite := isFinite_of_nonneg_of_le (zero_le_of_pos hpos) hle hinverse
  have hleast := place_le_place hepsilon hge hfinite
  have hmost := place_le_place hpos hle hinverse
  have hplaceEpsilon : place (Scalar.epsilon : Float) = -51 := by decide +kernel
  have hplaceInverse : place (Scalar.one / Scalar.epsilon : Float) = 53 := by decide +kernel
  rw [hplaceEpsilon] at hleast
  rw [hplaceInverse] at hmost
  exact ⟨hpos, hfinite, hleast, hmost⟩

/-- Guards on both gaps keep all coordinates away from zero and from the infinities, if packets have
a byte at least. -/
theorem Sample.PassesFilter.isPossible_of_guarded {q : CandidateQuery Float} (hq : q.IsProper)
    {s : Sample Float} (h : s.PassesFilter q) (hbyte : 1 ≤ q.packetSize)
    (hguarded : s.HasGuardedGaps) : s.IsPossible q := by
  obtain ⟨hgin, hginFinite, hginLeast, hginMost⟩ :=
    place_mem_of_guarded hguarded.gin_ge hguarded.gin_le
  obtain ⟨hgout, hgoutFinite, hgoutLeast, hgoutMost⟩ :=
    place_mem_of_guarded hguarded.gout_ge hguarded.gout_le
  have hlengthPos := hq.length_pos h.long_enough
  have hrate := isFinite_div_of_lt hlengthPos h.gin_pos h.input_rate
  have hlengthFinite := isFinite_of_div hrate
  have hlength : 1 ≤ place s.length := by
    have hone : place 1 = 1 := by decide +kernel
    have hsize := isFinite_of_nonneg_of_le (zero_le_of_pos hq.size_pos) h.long_enough hlengthFinite
    have hleast := place_le_place (by decide) hbyte hsize
    have hmost := place_le_place hq.size_pos h.long_enough hlengthFinite
    omega
  -- All three places are between those of the guards, and the ratios have places in between.
  have hratio := isFinite_div_of_place hgout hgin hgoutFinite hginFinite (by omega)
  have hx := zero_lt_div hlengthPos hgin hlengthFinite hginFinite (by omega) hrate
  have hy := zero_lt_div hgout hgin hgoutFinite hginFinite (by omega) hratio
  have hpassed : ¬ s.IsPassedOver := by
    intro hpassed
    rcases hpassed with hnear | hinfinite
    · exact not_lt_of_le hguarded.gin_ge hnear
    · exact Bool.noConfusion (hratio.symm.trans hinfinite)
  exact (Sample.isPossible_iff hgin h.input_rate
    (Sample.features?_of_pos hgin hginFinite hrate)).mpr ⟨hgout, hpassed, hx, hy⟩

/-! ## §4. Flagged samples -/

/-- A flagged sample, and what stands between it and being possible. -/
structure Sample.IsAdmitted (q : CandidateQuery Float) (s : Sample Float) : Prop where
  gin_pos : 0 < s.gin
  gin_finite : s.gin.isFinite = true
  rate_nonneg : 0 ≤ s.length / s.gin
  rate_lt : s.length / s.gin < q.maxCapacity
  /-- The output gap is large enough for the capacity, or has the sign of a negative number. -/
  gout : (0 < s.gout ∧ s.length / s.gout < q.maxCapacity) ∨ IsNegative s.gout
  /-- The fit passes over the sample for one of two reasons. -/
  features_eq : s.features? =
    if s.IsPassedOver then none else some ⟨s.length / s.gin, s.gout / s.gin⟩
  possible_iff : s.IsPossible q ↔
    0 < s.gout ∧ ¬ s.IsPassedOver ∧ 0 < s.length / s.gin ∧ 0 < s.gout / s.gin
  /-- Guards on both gaps are enough. -/
  possible_of_guarded : 1 ≤ q.packetSize → s.HasGuardedGaps → s.IsPossible q

/-- Samples below a cut are admitted. Their input gaps are finite, as they are below a baseline. -/
theorem IsCut.isAdmitted {q : CandidateQuery Float} (hq : q.IsProper) {xs : List (Sample Float)}
    {s : Sample Float} (h : IsCut q xs s) : s.IsAdmitted q := by
  obtain ⟨hpasses, base, -, hbelow⟩ := h
  have hlength := hq.length_pos hpasses.long_enough
  have hrate := isFinite_div_of_lt hlength hpasses.gin_pos hpasses.input_rate
  have hfinite := isFinite_of_nonneg_of_lt (zero_le_of_pos hpasses.gin_pos) hbelow
  have hfeatures := Sample.features?_of_pos hpasses.gin_pos hfinite hrate
  exact {
    gin_pos := hpasses.gin_pos
    gin_finite := hfinite
    rate_nonneg := zero_le_div hlength hpasses.gin_pos (isNaN_eq_false_of_isFinite hrate)
    rate_lt := hpasses.input_rate
    gout := ((passesFilter_iff hq).mp hpasses).2.2.2
    features_eq := hfeatures
    possible_iff := Sample.isPossible_iff hpasses.gin_pos hpasses.input_rate hfeatures
    possible_of_guarded := hpasses.isPossible_of_guarded hq }

theorem isAdmitted_of_used {q : CandidateQuery Float} (hq : q.IsProper)
    {xs : List (Sample Float)} {s : Sample Float} (hs : s ∈ markCandidates q xs)
    (hused : s.used = true) : s.IsAdmitted q :=
  (((isMarking_markCandidates q xs).used_iff s hs).mp hused).isAdmitted hq

/-- Admitted samples have a point or are passed over. -/
theorem length_points_add_passedOver {q : CandidateQuery Float} {group : List (Sample Float)}
    (h : ∀ s ∈ group, s.IsAdmitted q) :
    (group.filterMap Sample.features?).length + group.countP (·.IsPassedOver) = group.length := by
  induction group with
  | nil => rfl
  | cons s rest ih =>
    have hfeatures := (h s List.mem_cons_self).features_eq
    have hrest := ih fun t ht => h t (List.mem_cons_of_mem _ ht)
    by_cases hpassed : s.IsPassedOver
    · rw [if_pos hpassed] at hfeatures
      rw [List.filterMap_cons_none hfeatures, List.countP_cons_of_pos (by simpa using hpassed),
        List.length_cons]
      omega
    · rw [if_neg hpassed] at hfeatures
      rw [List.filterMap_cons_some hfeatures, List.countP_cons_of_neg (by simpa using hpassed),
        List.length_cons, List.length_cons]
      omega

/-! ## §5. Admission -/

/-- The used rows of a result and the points that its fits are given. -/
structure CountsPoints (rows : List (Sample Float)) (estimates : ExperimentEstimates) : Prop where
  /-- The fit of a link takes its used rows but those that it passes over. -/
  link : ∀ r ∈ estimates.links,
    ((usedSamplesOf r.link rows).filterMap Sample.features?).length
      + (usedSamplesOf r.link rows).countP (·.IsPassedOver) = r.samples
  whole : ((usedSamples rows).filterMap Sample.features?).length
    + (usedSamples rows).countP (·.IsPassedOver) = estimates.usedSamples

/-- What the two tests of a sample make of a query. -/
structure AdmitsSamples (q : CandidateQuery Float) : Prop where
  /-- What the physical filter asks for. -/
  filter_iff : ∀ s : Sample Float, s.PassesFilter q ↔
    0 < s.gin ∧ q.packetSize ≤ s.length ∧ s.length / s.gin < q.maxCapacity ∧
      ((0 < s.gout ∧ s.length / s.gout < q.maxCapacity) ∨ IsNegative s.gout)
  flagged : ∀ xs, ∀ s ∈ markCandidates q xs, s.used = true → s.IsAdmitted q
  /-- Estimates from candidates that are marked anew. -/
  estimated : ∀ (store : Store) (config : Config) (e : Estimator Float) (name : String)
    (profile : Profile) (estimates : ExperimentEstimates), store.recompute = true →
    config.profile? name = some profile →
    config.selection.query estimates.id profile.physicalCapacity = q →
    estimateExperiment store config e name = .ok estimates →
    ∃ rows, store.candidates q = .ok rows ∧ CountsPoints rows estimates

theorem countsPoints_estimates {q : CandidateQuery Float} (hq : q.IsProper)
    (xs : List (Sample Float)) (e : Estimator Float) (name : String) (id : ExperimentId)
    (capacity : Float) :
    CountsPoints (markCandidates q xs) (e.estimates name id capacity (markCandidates q xs)) := by
  have hused : ∀ s ∈ usedSamples (markCandidates q xs), s.IsAdmitted q := by
    intro s hs
    obtain ⟨hmem, hused⟩ := List.mem_filter.mp hs
    exact isAdmitted_of_used hq hmem hused
  constructor
  · intro r hr
    obtain ⟨link, -, rfl⟩ := mem_links_iff.mp hr
    exact length_points_add_passedOver fun s hs => hused s (List.mem_filter.mp hs).1
  · rw [usedSamples_estimates]
    exact length_points_add_passedOver hused

/-- Every query that a valid configuration can ask admits samples so. -/
theorem admitsSamples_of_isProper {q : CandidateQuery Float} (hq : q.IsProper) :
    AdmitsSamples q where
  filter_iff := fun _ => passesFilter_iff hq
  flagged := fun _ _ hs hused => isAdmitted_of_used hq hs hused
  estimated := by
    intro store config e name profile estimates hrecompute hprofile hquery hestimates
    subst hquery
    obtain ⟨profile', id, rows, hprofile', -, hrows, rfl⟩ :=
      estimateExperiment_eq_ok_iff.mp hestimates
    rw [hprofile] at hprofile'
    cases hprofile'
    refine ⟨rows, hrows, ?_⟩
    rw [candidates_eq] at hrows
    split at hrows
    · cases hrows
    · cases hrows
      unfold Store.select
      rw [if_pos hrecompute]
      exact countsPoints_estimates hq _ e name id profile.physicalCapacity

/-- A query with a capacity that is above the rate of some gaps below `epsilon`. -/
def wideQuery : CandidateQuery Float :=
  ⟨1, 1e20, 1362, 0.1, none⟩

/-- A sound row, one whose output gap is the zero with a sign, and one whose input gap is below
`epsilon`. -/
def unguardedRows : List (Sample Float) :=
  [⟨7, 1, 0.002, 0.005, 1362, false, none⟩, ⟨7, 1, 0.003, -0.0, 1362, false, none⟩,
    ⟨8, 1, 1e-16, 0.005, 1362, false, none⟩]

theorem wideQuery_isProper : wideQuery.IsProper where
  size_pos := by decide +kernel
  confidence_pos := by decide +kernel
  confidence_le_one := by decide +kernel
  capacity_pos := by decide +kernel
  capacity_finite := by decide +kernel

/-- The sound row is flagged and, as its gaps are guarded, it is possible. -/
theorem wideQuery_admits_soundRow :
    wideQuery.IsProper ∧
      ∃ s ∈ markCandidates wideQuery unguardedRows, s.used = true ∧ s.IsPossible wideQuery := by
  have hadmits := admitsSamples_of_isProper wideQuery_isProper
  have hflagged : ∃ s ∈ markCandidates wideQuery unguardedRows, s.used = true ∧
      (Scalar.epsilon ≤ s.gin ∧ s.gin ≤ Scalar.one / Scalar.epsilon) ∧
      Scalar.epsilon ≤ s.gout ∧ s.gout ≤ Scalar.one / Scalar.epsilon := by
    decide +kernel
  obtain ⟨s, hs, hused, ⟨hginLeast, hginMost⟩, hgoutLeast, hgoutMost⟩ := hflagged
  have hpossible := (hadmits.flagged unguardedRows s hs hused).possible_of_guarded
    (by decide +kernel) ⟨hginLeast, hginMost, hgoutLeast, hgoutMost⟩
  exact ⟨wideQuery_isProper, s, hs, hused, hpossible⟩

/-- The other two rows are flagged as well, although one has no positive output gap and the other
no point. -/
theorem wideQuery_admits_impossibleRows :
    wideQuery.IsProper ∧
      (markCandidates wideQuery unguardedRows).map (·.used) = [true, true, true] ∧
      (∃ s ∈ markCandidates wideQuery unguardedRows, s.used = true ∧ ¬ 0 < s.gout) ∧
      (∃ s ∈ markCandidates wideQuery unguardedRows, s.used = true ∧ s.features? = none) ∧
      ¬ ∀ s ∈ markCandidates wideQuery unguardedRows, s.used = true → s.IsPossible wideQuery := by
  have hgout : ∃ s ∈ markCandidates wideQuery unguardedRows, s.used = true ∧ ¬ 0 < s.gout := by
    decide +kernel
  have hpoint : ∃ s ∈ markCandidates wideQuery unguardedRows, s.used = true ∧
      s.features? = none := by
    decide +kernel
  refine ⟨wideQuery_isProper, by decide +kernel, hgout, hpoint, ?_⟩
  intro hall
  obtain ⟨s, hs, hused, hnot⟩ := hgout
  exact hnot (hall s hs hused).gout_pos

end ProbeGap
