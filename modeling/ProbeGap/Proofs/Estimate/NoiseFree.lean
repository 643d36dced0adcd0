import Mathlib.Algebra.Order.Field.Basic
import ProbeGap.Proofs.Regression.Exact
import ProbeGap.Proofs.Store.Marking

/-!
# Samples without noise

A bottleneck of capacity `C` that leaves the bandwidth `A` available dilates the gap of a probe
pair offered at rate `x` by `max 1 (x / C + 1 - A / C)`. Up to the rate `A` this is flat, and from
there on it is a line that crosses one at `A`. So the bandwidth can be read off samples that
follow the model without noise, if none of them is from the flat part.

Marking sees to that. The samples with the smallest input gaps are those with the highest rates.
If their rates are not below `A`, none of their output gaps is above `length / A`, so neither is
the mean. The input gap of a sample of the flat part is not below that, so the sample is not
marked (`bandwidth_lt_rate`).

All marked samples then lie on the line, the plain fit finds it wherever it can tell a line at
all, and the robust fit has nothing to refine. Read with rational numbers, the estimate is `A`,
and there is no estimate only if the marked rates have no usable spread or the slope `1 / C` is
below the limit for slopes (`noise_free_estimates_are_exact`).
-/

namespace ProbeGap

/-! ## §1. Bottlenecks -/

/-- A bottleneck and the bandwidth that other traffic leaves available on it. -/
structure Bottleneck where
  capacity : Rat
  bandwidth : Rat
  bandwidth_pos : 0 < bandwidth
  bandwidth_lt : bandwidth < capacity

namespace Bottleneck

variable (b : Bottleneck)

theorem capacity_pos : 0 < b.capacity :=
  b.bandwidth_pos.trans b.bandwidth_lt

/-- How much wider the gap of a probe pair is behind the bottleneck. -/
def dilation (x : Rat) : Rat :=
  max 1 (x / b.capacity + 1 - b.bandwidth / b.capacity)

/-- The line that the dilation follows from the available bandwidth on. -/
def line : Line Rat where
  intercept := 1 - b.bandwidth / b.capacity
  slope := 1 / b.capacity

theorem one_le_dilation (x : Rat) : 1 ≤ b.dilation x :=
  le_max_left _ _

theorem dilation_eq_line {x : Rat} (h : b.bandwidth ≤ x) :
    b.dilation x = b.line.intercept + b.line.slope * x := by
  have hratio : b.bandwidth / b.capacity ≤ x / b.capacity :=
    div_le_div_of_nonneg_right h (le_of_lt b.capacity_pos)
  have hline : 1 ≤ x / b.capacity + 1 - b.bandwidth / b.capacity := by linarith
  unfold dilation line
  rw [max_eq_right hline]
  ring

/-- The line crosses one at the available bandwidth. -/
theorem unitCrossing_line : b.line.unitCrossing = b.bandwidth := by
  have hcapacity : b.capacity ≠ 0 := ne_of_gt b.capacity_pos
  show (1 - (1 - b.bandwidth / b.capacity)) / (1 / b.capacity) = b.bandwidth
  field_simp
  ring

/-- A sample of a packet length that the bottleneck gives at some rate below a limit. -/
structure Gives (length maxRate : Rat) (s : Sample Rat) : Prop where
  length_eq : s.length = length
  at_rate : ∃ x, 0 < x ∧ x < maxRate ∧ s.gin = length / x ∧ s.gout = s.gin * b.dilation x

end Bottleneck

/-- The rate at which the packets of a sample are offered. -/
def Sample.rate (s : Sample Rat) : Rat :=
  s.length / s.gin

namespace Bottleneck.Gives

variable {b : Bottleneck} {length maxRate : Rat} {s : Sample Rat}

/-- The rate of a sample is the one at which it was given. -/
theorem gaps (h : b.Gives length maxRate s) (hlength : 0 < length) :
    0 < s.rate ∧ s.rate < maxRate ∧ s.gin = length / s.rate ∧
      s.gout = length / s.rate * b.dilation s.rate := by
  obtain ⟨x, hpos, hmax, hgin, hgout⟩ := h.at_rate
  have hrate : s.rate = x := by
    unfold Sample.rate
    rw [h.length_eq, hgin]
    field_simp
  rw [hrate]
  exact ⟨hpos, hmax, hgin, by rw [hgout, hgin]⟩

theorem gin_pos (h : b.Gives length maxRate s) (hlength : 0 < length) : 0 < s.gin := by
  obtain ⟨hrate, -, hgin, -⟩ := h.gaps hlength
  rw [hgin]
  exact div_pos hlength hrate

/-- The gap of a sample that is not from the flat part is not wider than that of the bandwidth. -/
theorem gout_le (h : b.Gives length maxRate s) (hlength : 0 < length)
    (hrate : b.bandwidth ≤ s.rate) : s.gout ≤ length / b.bandwidth := by
  obtain ⟨hpos, -, -, hgout⟩ := h.gaps hlength
  have hbandwidth : b.bandwidth ≠ 0 := ne_of_gt b.bandwidth_pos
  have hcapacity : b.capacity ≠ 0 := ne_of_gt b.capacity_pos
  have hrate' : s.rate ≠ 0 := ne_of_gt hpos
  -- As a fraction the difference has no negative factor.
  have hdifference : length / b.bandwidth - s.gout =
      length * (s.rate - b.bandwidth) * (b.capacity - b.bandwidth) /
        (b.bandwidth * b.capacity * s.rate) := by
    rw [hgout, b.dilation_eq_line hrate]
    unfold Bottleneck.line
    field_simp
    ring
  have hnonneg : 0 ≤ length / b.bandwidth - s.gout := by
    rw [hdifference]
    have hnumerator : 0 ≤ length * (s.rate - b.bandwidth) * (b.capacity - b.bandwidth) :=
      mul_nonneg (mul_nonneg (le_of_lt hlength) (sub_nonneg.mpr hrate))
        (le_of_lt (sub_pos.mpr b.bandwidth_lt))
    have hdenominator : 0 ≤ b.bandwidth * b.capacity * s.rate :=
      le_of_lt (mul_pos (mul_pos b.bandwidth_pos b.capacity_pos) hpos)
    exact div_nonneg hnumerator hdenominator
  exact sub_nonneg.mp hnonneg

/-- Whatever the bottleneck gives is physically possible. -/
theorem isEligible {q : CandidateQuery Rat} (h : b.Gives length q.maxCapacity s)
    (hpacket : 0 < q.packetSize) (hlength : q.packetSize ≤ length) :
    isEligible q s = true := by
  have hpos : 0 < length := hpacket.trans_le hlength
  have hgin : 0 < s.gin := h.gin_pos hpos
  obtain ⟨hrate, hmax, hgin', hgout⟩ := h.gaps hpos
  have hout : s.length / s.gout = s.rate / b.dilation s.rate := by
    rw [hgout, h.length_eq]
    have hdilation : b.dilation s.rate ≠ 0 :=
      ne_of_gt (zero_lt_one.trans_le (b.one_le_dilation s.rate))
    have hrate' : s.rate ≠ 0 := ne_of_gt hrate
    field_simp
  have houtRate : s.length / s.gout < q.maxCapacity := by
    rw [hout]
    exact (div_le_self (le_of_lt hrate) (b.one_le_dilation s.rate)).trans_lt hmax
  unfold ProbeGap.isEligible
  rw [Bool.and_eq_true_iff, Bool.and_eq_true_iff, Bool.and_eq_true_iff]
  refine ⟨⟨⟨?_, ?_⟩, ?_⟩, ?_⟩
  · exact decide_eq_true hgin
  · rw [h.length_eq]
    exact decide_eq_true hlength
  · exact decide_eq_true hmax
  · exact decide_eq_true houtRate

end Bottleneck.Gives

/-! ## §2. The cut -/

/-- The samples whose output gaps form the baseline of a list. -/
def baselineSamples (q : CandidateQuery Rat) (samples : List (Sample Rat)) :
    List (Sample Rat) :=
  (byInputGap (samples.filter (isEligible q))).take
    (baselineCount q (samples.filter (isEligible q)).length)

/-- A bound on the output gaps that form a baseline bounds the baseline. -/
theorem baseline_le {q : CandidateQuery Rat} {samples : List (Sample Rat)} {bound : Rat}
    (hne : samples.filter (isEligible q) ≠ [])
    (hbound : ∀ s ∈ baselineSamples q samples, s.gout ≤ bound) :
    baseline q (samples.filter (isEligible q)) ≤ bound := by
  -- The mean divides by the number of gaps that are added up, and that is not zero.
  have hlength : (baselineSamples q samples).length
      = baselineCount q (samples.filter (isEligible q)).length := by
    unfold baselineSamples byInputGap baselineCount
    rw [List.length_take, length_sortBy]
    omega
  have hcount : 0 < baselineCount q (samples.filter (isEligible q)).length := by
    have hpos := List.length_pos_iff.mpr hne
    unfold baselineCount
    omega
  have hgaps : ∀ gap ∈ (baselineSamples q samples).map (·.gout), gap ≤ bound := by
    intro gap hgap
    obtain ⟨s, hs, rfl⟩ := List.mem_map.mp hgap
    exact hbound s hs
  have hsum := List.sum_le_card_nsmul _ bound hgaps
  rw [List.length_map, hlength, nsmul_eq_mul, mul_comm] at hsum
  show Scalar.sum ((baselineSamples q samples).map (·.gout)) /
    ((baselineCount q (samples.filter (isEligible q)).length : Nat) : Rat) ≤ bound
  rw [Scalar.sum_exact, div_le_iff₀ (Nat.cast_pos.mpr hcount)]
  exact hsum

section

variable {b : Bottleneck} {q : CandidateQuery Rat} {length : Rat} {link : LinkId}
  {samples : List (Sample Rat)}

/-- No marked sample is from the flat part. -/
theorem bandwidth_lt_rate (hpacket : 0 < q.packetSize) (hlength : q.packetSize ≤ length)
    (hlink : ∀ s ∈ samples, s.link = link)
    (hgiven : ∀ s ∈ samples, b.Gives length q.maxCapacity s)
    (hbaseline : ∀ s ∈ baselineSamples q samples, b.bandwidth ≤ s.rate)
    {s : Sample Rat} (hs : s ∈ samples) (hmarked : isCandidate q (baselines q samples) s = true) :
    b.bandwidth < s.rate := by
  have hpos : 0 < length := hpacket.trans_le hlength
  rw [isCandidate_of_one_link hlink hs, Bool.and_eq_true_iff] at hmarked
  obtain ⟨heligible, hcut⟩ := hmarked
  have hne : samples.filter (isEligible q) ≠ [] :=
    List.ne_nil_of_mem (List.mem_filter.mpr ⟨hs, heligible⟩)
  have hmean : baseline q (samples.filter (isEligible q)) ≤ length / b.bandwidth := by
    apply baseline_le hne
    intro t ht
    have hmem : t ∈ samples := by
      have hsorted := (sortBy_perm _ _).mem_iff.mp (List.mem_of_mem_take ht)
      exact (List.mem_filter.mp hsorted).1
    exact (hgiven t hmem).gout_le hpos (hbaseline t ht)
  have hgin : s.gin < length / b.bandwidth := (of_decide_eq_true hcut).trans_le hmean
  obtain ⟨hrate, -, hgin', -⟩ := (hgiven s hs).gaps hpos
  -- Shorter gaps are higher rates.
  rw [hgin'] at hgin
  exact (div_lt_div_iff_of_pos_left hpos hrate b.bandwidth_pos).mp hgin

end

/-! ## §3. The estimate -/

/-- The outcomes that are possible for points on the line of a bottleneck: the bandwidth is
recovered, unless the points do not tell a line or its slope is too small to be accepted. -/
inductive Bottleneck.Recovers (b : Bottleneck) (points : List (Point Rat)) (slopeEpsilon : Rat) :
    Outcome Rat → Prop where
  | bandwidth (hspread : HasSpread points (unitWeights points))
      (hslope : slopeEpsilon ≤ 1 / b.capacity) :
      Recovers b points slopeEpsilon (.valid { b.line with iterations := 1 } b.bandwidth)
  | flatSlope (hspread : HasSpread points (unitWeights points))
      (hslope : 1 / b.capacity < slopeEpsilon) :
      Recovers b points slopeEpsilon (.degenerateSlope (1 / b.capacity))
  | noSpread (hspread : ¬ HasSpread points (unitWeights points)) {cause : FitError}
      (hcause : cause = .empty ∨ cause = .insufficientSpread 1 ∨ cause = .singular) :
      Recovers b points slopeEpsilon (.fitFailure cause)

theorem Estimator.rejectsSlope_of_pos (e : Estimator Rat) {slope : Rat} (h : 0 < slope) :
    e.rejectsSlope slope = decide (slope < e.slopeEpsilon) := by
  have hpositive : decide (slope ≤ Scalar.zero) = false := decide_eq_false (not_le.mpr h)
  unfold Estimator.rejectsSlope
  rw [hpositive, Bool.or_false, Scalar.abs_exact, abs_of_pos h]

/-- Every estimator recovers the bandwidth from points on the line. -/
theorem Bottleneck.recovers_of_line {b : Bottleneck} {capacity : Rat}
    (hcapacity : b.bandwidth < capacity) (e : Estimator Rat) {points : List (Point Rat)}
    (hline : ∀ p ∈ points, p.y = b.line.intercept + b.line.slope * p.x) :
    b.Recovers points e.slopeEpsilon ((e.crossing points).within capacity) := by
  unfold Estimator.crossing
  rw [e.fit_of_line hline]
  by_cases hspread : HasSpread points (unitWeights points)
  · rw [plainFit_of_hasSpread hline hspread]
    dsimp only
    rw [b.unitCrossing_line, show b.line.slope = 1 / b.capacity from rfl,
      e.rejectsSlope_of_pos (one_div_pos.mpr b.capacity_pos)]
    by_cases hslope : 1 / b.capacity < e.slopeEpsilon
    · rw [if_pos (decide_eq_true hslope)]
      exact .flatSlope hspread hslope
    · have hbounded : boundedEstimate b.bandwidth capacity = .ok b.bandwidth :=
        if_pos ⟨b.bandwidth_pos, hcapacity⟩
      rw [if_neg (mt of_decide_eq_true hslope)]
      unfold Outcome.within
      dsimp only
      rw [hbounded]
      exact .bandwidth hspread (not_lt.mp hslope)
  · obtain ⟨cause, hcause, hfit⟩ := plainFit_of_not_hasSpread hspread
    rw [hfit]
    exact .noSpread hspread hcause

/-- The point of a sample is its rate and the dilation of its gap. -/
theorem Sample.eq_of_features? {s : Sample Rat} {p : Point Rat} (h : s.features? = some p) :
    p = ⟨s.rate, s.gout / s.gin⟩ := by
  unfold Sample.features? at h
  by_cases hgin : ¬ Scalar.isFinite s.gin ∨ Scalar.abs s.gin < Scalar.epsilon
  · rw [if_pos hgin] at h
    cases h
  · rw [if_neg hgin] at h
    exact (Option.some.inj h).symm

/-- Samples of one link that a bottleneck gives without noise are marked only above the available
bandwidth, if those that form the baseline are not below it. Every estimator, with either method
and under any options, recovers that bandwidth from the marked samples. -/
theorem noise_free_estimates_are_exact {b : Bottleneck} {q : CandidateQuery Rat} {length : Rat}
    {link : LinkId} {samples : List (Sample Rat)}
    (hcapacity : b.capacity ≤ q.maxCapacity) (hpacket : 0 < q.packetSize)
    (hlength : q.packetSize ≤ length) (hlink : ∀ s ∈ samples, s.link = link)
    (hgiven : ∀ s ∈ samples, b.Gives length q.maxCapacity s)
    (hbaseline : ∀ s ∈ baselineSamples q samples, b.bandwidth ≤ s.rate) :
    (∀ s ∈ usedSamples (markCandidates q samples), b.bandwidth < s.rate) ∧
      ∀ e : Estimator Rat,
        b.Recovers ((usedSamples (markCandidates q samples)).filterMap Sample.features?)
          e.slopeEpsilon (e.outcome (usedSamples (markCandidates q samples)) q.maxCapacity) := by
  have hpos : 0 < length := hpacket.trans_le hlength
  have habove : ∀ s ∈ usedSamples (markCandidates q samples),
      b.bandwidth < s.rate ∧ b.Gives length q.maxCapacity s := by
    intro s hs
    rw [markCandidates_eq_markBy, usedSamples_markBy] at hs
    obtain ⟨t, hcandidate, rfl⟩ := List.mem_map.mp hs
    obtain ⟨ht, hmarked⟩ := List.mem_filter.mp hcandidate
    have hrate : b.bandwidth < t.rate :=
      bandwidth_lt_rate hpacket hlength hlink hgiven hbaseline ht hmarked
    have hgives := hgiven t ht
    exact ⟨hrate, hgives.length_eq, hgives.at_rate⟩
  refine ⟨fun s hs => (habove s hs).1, fun e => ?_⟩
  apply Bottleneck.recovers_of_line (b.bandwidth_lt.trans_le hcapacity)
  -- Above the bandwidth the dilation is the line.
  intro p hp
  obtain ⟨s, hs, hfeatures⟩ := List.mem_filterMap.mp hp
  obtain ⟨hrate, hgives⟩ := habove s hs
  obtain ⟨hrate', -, hgin, hgout⟩ := hgives.gaps hpos
  have hdilation : s.gout / s.gin = b.dilation s.rate := by
    rw [hgout, ← hgin]
    exact mul_div_cancel_left₀ _ (ne_of_gt (hgives.gin_pos hpos))
  rw [Sample.eq_of_features? hfeatures]
  dsimp only
  rw [hdilation]
  exact b.dilation_eq_line (le_of_lt hrate)

/-- A bottleneck half of which is available. -/
def halfFree : Bottleneck where
  capacity := 4
  bandwidth := 2
  bandwidth_pos := by norm_num
  bandwidth_lt := by norm_num

/-- Samples at the rates 6, 4, 3 and 1, the last of which is from the flat part. -/
def fourRates : List (Sample Rat) :=
  [⟨1, 1, 2, 4, 12, false, none⟩, ⟨1, 1, 3, 9 / 2, 12, false, none⟩,
    ⟨1, 1, 4, 5, 12, false, none⟩, ⟨1, 1, 12, 12, 12, false, none⟩]

/-- A query whose baseline is half of the samples. -/
def halfOfSamples : CandidateQuery Rat :=
  { experiment := 1, maxCapacity := 8, packetSize := 12, minConfidence := 1 / 2 }

/-- The three samples above the available bandwidth are marked, and tell it. -/
theorem fourRates_recover_halfFree :
    (markCandidates halfOfSamples fourRates).map (·.used) = [true, true, true, false] ∧
      (∀ s ∈ usedSamples (markCandidates halfOfSamples fourRates), halfFree.bandwidth < s.rate) ∧
      ∀ e : Estimator Rat,
        halfFree.Recovers
          ((usedSamples (markCandidates halfOfSamples fourRates)).filterMap Sample.features?)
          e.slopeEpsilon
          (e.outcome (usedSamples (markCandidates halfOfSamples fourRates)) 8) := by
  have hcapacity : halfFree.capacity ≤ halfOfSamples.maxCapacity := by decide +kernel
  have hpacket : 0 < halfOfSamples.packetSize := by decide +kernel
  have hlink : ∀ s ∈ fourRates, s.link = 1 := by decide
  have hgiven : ∀ s ∈ fourRates, halfFree.Gives 12 halfOfSamples.maxCapacity s := by
    intro s hs
    unfold fourRates at hs
    simp only [List.mem_cons, List.not_mem_nil, or_false] at hs
    rcases hs with rfl | rfl | rfl | rfl
    · exact ⟨rfl, 6, by decide +kernel⟩
    · exact ⟨rfl, 4, by decide +kernel⟩
    · exact ⟨rfl, 3, by decide +kernel⟩
    · exact ⟨rfl, 1, by decide +kernel⟩
  have hbaseline : ∀ s ∈ baselineSamples halfOfSamples fourRates,
      halfFree.bandwidth ≤ s.rate := by decide +kernel
  exact ⟨by decide +kernel, noise_free_estimates_are_exact hcapacity hpacket (le_refl 12) hlink
    hgiven hbaseline⟩

/-- The robust method finds the line at once. -/
example :
    Estimator.outcome ⟨.robust, ⟨100, 1 / 100000000, 1345 / 1000⟩, 1 / 1000000000⟩
      (usedSamples (markCandidates halfOfSamples fourRates)) 8 =
        .valid ⟨⟨1 / 2, 1 / 4⟩, 1⟩ 2 := by decide +kernel

end ProbeGap
