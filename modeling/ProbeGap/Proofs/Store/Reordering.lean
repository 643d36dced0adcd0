import Mathlib.Data.List.Basic
import ProbeGap.Proofs.Estimate.Experiment
import ProbeGap.Proofs.Numeric.Order
import ProbeGap.Proofs.Store.Marking

/-!
# Marking and the order of the samples

The flags of a link come from one cut: its eligible samples below the baseline are marked.
The order in which samples are given can only move that cut. So whatever the order, the
samples of a link that are marked in one order are among those that are marked in the other,
or the reverse.

The order matters where samples tie. Samples with the same input gap keep their places when
they are sorted, so it depends on the order which of them the baseline takes, and in which
order their output gaps are added up. If samples of a link with the same input gap have the
same output gap, the gaps come out of the sorting in one way only, and the order does not
matter at all. `tiedSamples` are samples for which it does or does not, as their output gaps are.

Main statement: `reordering_moves_cuts_at_ties`.
-/

namespace ProbeGap

/-! ## §1. Lists in another order -/

section lists

variable {α β : Type}

/-- The members of a list in another order, which lists their places. -/
def reordered (order : List Nat) (xs : List α) : List α :=
  order.filterMap (xs[·]?)

theorem map_reordered (f : α → β) (order : List Nat) (xs : List α) :
    (reordered order xs).map f = reordered order (xs.map f) := by
  unfold reordered
  rw [List.map_filterMap]
  congr 1
  funext place
  rw [List.getElem?_map]

theorem reordered_range (xs : List α) : reordered (List.range xs.length) xs = xs := by
  unfold reordered
  induction xs with
  | nil => rfl
  | cons x xs ih =>
    rw [List.length_cons, List.range_succ_eq_map, List.filterMap_cons, List.filterMap_map]
    exact congrArg (x :: ·) ih

/-- An order that lists every place once gives a permutation. -/
theorem reordered_perm {order : List Nat} {xs : List α}
    (horder : order.Perm (List.range xs.length)) : (reordered order xs).Perm xs := by
  have hperm := horder.filterMap (xs[·]?)
  have hrange := reordered_range xs
  unfold reordered at hrange ⊢
  rwa [hrange] at hperm

end lists

/-! ## §2. The cut of a link -/

/-- Whether an input gap is below a baseline, if there is one. -/
def isBelow (base : Option Float) (gin : Float) : Bool :=
  match base with
  | some base => decide (gin < base)
  | none => false

theorem isCandidate_eq_isBelow (q : CandidateQuery Float) (bases : Table LinkId Float)
    (s : Sample Float) :
    isCandidate q bases s = (isEligible q s && isBelow (bases.get? s.link) s.gin) := by
  unfold isCandidate isBelow
  cases bases.get? s.link <;> rfl

/-- Of two cuts one is contained in the other, also if a baseline is not a number. -/
theorem isBelow_total (base other : Option Float) :
    (∀ gin, isBelow base gin = true → isBelow other gin = true) ∨
      (∀ gin, isBelow other gin = true → isBelow base gin = true) := by
  have hnumber : ∀ {gin b : Float}, isBelow (some b) gin = true →
      gin.isNaN = false ∧ b.isNaN = false :=
    fun h => isNaN_eq_false_of_lt (of_decide_eq_true h)
  cases base with
  | none =>
    left
    intro gin h
    cases h
  | some b =>
    cases other with
    | none =>
      right
      intro gin h
      cases h
    | some b' =>
      rcases Int.le_total (orderKey b) (orderKey b') with hle | hle
      · by_cases hb' : b'.isNaN = false
        · left
          intro gin h
          obtain ⟨hgin, hb⟩ := hnumber h
          have hlt := (lt_iff_orderKey hgin hb).mp (of_decide_eq_true h)
          exact decide_eq_true ((lt_iff_orderKey hgin hb').mpr (by omega))
        · right
          intro gin h
          exact absurd (hnumber h).2 hb'
      · by_cases hb : b.isNaN = false
        · right
          intro gin h
          obtain ⟨hgin, hb'⟩ := hnumber h
          have hlt := (lt_iff_orderKey hgin hb').mp (of_decide_eq_true h)
          exact decide_eq_true ((lt_iff_orderKey hgin hb).mpr (by omega))
        · left
          intro gin h
          exact absurd (hnumber h).2 hb

/-! ## §3. Samples that tie -/

/-- Eligible samples of a link with the same input gap have the same output gap. -/
def TiesAgree (q : CandidateQuery Float) (xs : List (Sample Float)) : Prop :=
  ∀ a ∈ xs, ∀ b ∈ xs, isEligible q a = true → isEligible q b = true → a.link = b.link →
    a.gin = b.gin → a.gout = b.gout

instance (q : CandidateQuery Float) (xs : List (Sample Float)) : Decidable (TiesAgree q xs) :=
  inferInstanceAs <| Decidable <|
    ∀ a ∈ xs, ∀ b ∈ xs, isEligible q a = true → isEligible q b = true → a.link = b.link →
      a.gin = b.gin → a.gout = b.gout

section

variable {q : CandidateQuery Float} {xs ys : List (Sample Float)}

theorem linkGaps_perm (hperm : xs.Perm ys) (link : LinkId) :
    (linkGaps q link xs).Perm (linkGaps q link ys) := by
  unfold linkGaps eligibleOf
  exact ((hperm.filter _).filter _).map _

/-- Gaps in another order have the same baseline, if the input gap tells the output gap. -/
theorem baselineOfGaps_eq_of_perm {gaps others : List (Float × Float)}
    (hperm : gaps.Perm others)
    (hties : ∀ g ∈ gaps, ∀ h ∈ gaps, g.1 = h.1 → g.2 = h.2) :
    baselineOfGaps q gaps = baselineOfGaps q others := by
  have hsorted : sortBy (fun g h : Float × Float => Scalar.totalLe g.1 h.1) gaps
      = sortBy (fun g h : Float × Float => Scalar.totalLe g.1 h.1) others := by
    apply sortBy_eq_of_perm (fun g h => totalLe_total g.1 h.1)
      (fun g h k => totalLe_trans g.1 h.1 k.1) _ hperm
    intro g hg h hh hle hge
    have hgin : g.1 = h.1 := eq_of_totalLe hle hge
    exact Prod.ext hgin (hties g hg h hh hgin)
  unfold baselineOfGaps
  rw [hsorted, hperm.length_eq]

theorem ties_of_mem_linkGaps (hties : TiesAgree q xs) (link : LinkId) :
    ∀ g ∈ linkGaps q link xs, ∀ h ∈ linkGaps q link xs, g.1 = h.1 → g.2 = h.2 := by
  have hmem : ∀ {g : Float × Float}, g ∈ linkGaps q link xs →
      ∃ s ∈ xs, isEligible q s = true ∧ s.link = link ∧ s.gaps = g := by
    intro g hg
    obtain ⟨s, hs, hgaps⟩ := List.mem_map.mp hg
    obtain ⟨heligible, hlink⟩ := List.mem_filter.mp hs
    obtain ⟨hxs, heligible⟩ := List.mem_filter.mp heligible
    exact ⟨s, hxs, heligible, of_decide_eq_true hlink, hgaps⟩
  intro g hg h hh
  obtain ⟨a, ha, haEligible, haLink, rfl⟩ := hmem hg
  obtain ⟨b, hb, hbEligible, hbLink, rfl⟩ := hmem hh
  exact hties a ha b hb haEligible hbEligible (haLink.trans hbLink.symm)

theorem baselines_eq_of_perm (hperm : xs.Perm ys) (hties : TiesAgree q xs) :
    baselines q xs = baselines q ys := by
  apply baselines_eq_of_linkGaps
  · intro link
    have hlength := (linkGaps_perm (q := q) hperm link).length_eq
    rw [← List.length_eq_zero_iff, ← List.length_eq_zero_iff, hlength]
  · intro link
    exact baselineOfGaps_eq_of_perm (linkGaps_perm hperm link) (ties_of_mem_linkGaps hties link)

end

/-! ## §4. Marking in another order -/

/-- The lower of two cuts marks some of the samples that the higher one marks. -/
theorem usedSamplesOf_markBy_sublist {q : CandidateQuery Float}
    {bases others : Table LinkId Float} {link : LinkId}
    (hcut : ∀ gin, isBelow (bases.get? link) gin = true → isBelow (others.get? link) gin = true)
    (xs : List (Sample Float)) :
    (usedSamplesOf link (markBy q bases xs)).Sublist (usedSamplesOf link (markBy q others xs)) := by
  have himp : ∀ s : Sample Float, (decide (s.link = link) && isCandidate q bases s) = true →
      (decide (s.link = link) && isCandidate q others s) = true := by
    intro s hs
    rw [isCandidate_eq_isBelow, Bool.and_eq_true_iff, Bool.and_eq_true_iff] at hs
    obtain ⟨hlink, heligible, hbelow⟩ := hs
    rw [of_decide_eq_true hlink] at hbelow
    rw [isCandidate_eq_isBelow, Bool.and_eq_true_iff, Bool.and_eq_true_iff]
    refine ⟨hlink, heligible, ?_⟩
    rw [of_decide_eq_true hlink]
    exact hcut s.gin hbelow
  unfold usedSamplesOf
  -- Marking keeps links, so the samples can be cut to the link before they are marked.
  rw [usedSamples_markBy, usedSamples_markBy, List.filter_map, List.filter_map,
    List.filter_filter, List.filter_filter]
  exact (List.monotone_filter_right xs himp).map _

/-- Marking samples that are given in another order flags the same ones, if samples of a link
with the same input gap have the same output gap. Whether they have or not, of the samples of a
link the ones that are flagged in one of the two orders are all flagged in the other. -/
theorem reordering_moves_cuts_at_ties {q : CandidateQuery Float} {xs : List (Sample Float)}
    {order : List Nat} (horder : order.Perm (List.range xs.length)) :
    (TiesAgree q xs →
      markCandidates q (reordered order xs) = reordered order (markCandidates q xs)) ∧
    ∀ link,
      (usedSamplesOf link (reordered order (markCandidates q xs))).Sublist
          (usedSamplesOf link (markCandidates q (reordered order xs))) ∨
        (usedSamplesOf link (markCandidates q (reordered order xs))).Sublist
          (usedSamplesOf link (reordered order (markCandidates q xs))) := by
  have hperm : (reordered order xs).Perm xs := reordered_perm horder
  -- In both orders the samples stand in the new order, so only the cuts can differ.
  have hmarked : reordered order (markCandidates q xs)
      = markBy q (baselines q xs) (reordered order xs) :=
    (map_reordered _ order xs).symm
  constructor
  · intro hties
    have hbases : baselines q xs = baselines q (reordered order xs) :=
      baselines_eq_of_perm hperm.symm hties
    rw [hmarked, hbases, ← markCandidates_eq_markBy]
  · intro link
    rw [hmarked, markCandidates_eq_markBy]
    rcases isBelow_total ((baselines q xs).get? link)
      ((baselines q (reordered order xs)).get? link) with hcut | hcut
    · exact Or.inl (usedSamplesOf_markBy_sublist hcut _)
    · exact Or.inr (usedSamplesOf_markBy_sublist hcut _)

/-- Two samples of a link that have the same input gap, and a third one with a larger gap. -/
def tiedSamples (gout gout' : Float) : List (Sample Float) :=
  [⟨7, 1, 0.004, gout, 1362, false, none⟩, ⟨7, 1, 0.004, gout', 1362, false, none⟩,
    ⟨7, 1, 0.008, 0.01, 1362, false, none⟩]

/-- A query whose baseline is the first of three samples. -/
def firstOfThree : CandidateQuery Float :=
  { experiment := 1, maxCapacity := 1250000, packetSize := 1362, minConfidence := 0.1 }

/-- Where the two samples have the same output gap, both are flagged in either order. -/
theorem reordering_agreeing_ties :
    [2, 1, 0].Perm (List.range (tiedSamples 0.006 0.006).length) ∧
      TiesAgree firstOfThree (tiedSamples 0.006 0.006) ∧
      (markCandidates firstOfThree (tiedSamples 0.006 0.006)).map (·.used)
        = [true, true, false] ∧
      markCandidates firstOfThree (reordered [2, 1, 0] (tiedSamples 0.006 0.006)) =
        reordered [2, 1, 0] (markCandidates firstOfThree (tiedSamples 0.006 0.006)) := by
  have horder : [2, 1, 0].Perm (List.range (tiedSamples 0.006 0.006).length) := by decide
  have hties : TiesAgree firstOfThree (tiedSamples 0.006 0.006) := by decide +kernel
  exact ⟨horder, hties, by decide +kernel, (reordering_moves_cuts_at_ties horder).1 hties⟩

/-- Where they differ in the output gap, the first one given is the baseline. Given the other way
round, two samples are flagged of which none was. -/
theorem reordering_differing_ties :
    Scalar.zero < firstOfThree.packetSize ∧ Scalar.zero < firstOfThree.minConfidence ∧
      firstOfThree.minConfidence ≤ Scalar.one ∧
      [2, 1, 0].Perm (List.range (tiedSamples 0.003 0.006).length) ∧
      (reordered [2, 1, 0] (markCandidates firstOfThree (tiedSamples 0.003 0.006))).map (·.used)
        = [false, false, false] ∧
      (markCandidates firstOfThree (reordered [2, 1, 0] (tiedSamples 0.003 0.006))).map (·.used)
        = [false, true, true] := by
  decide +kernel

end ProbeGap
