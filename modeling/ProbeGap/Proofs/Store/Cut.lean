import ProbeGap.Proofs.Numeric.Order
import ProbeGap.Proofs.Store.Marking

/-!
# The cut of a link

Marking goes through tables of groups and of baselines. What comes out of it is said here
without them, row by row: a sample is flagged if it passes the physical filter and its input gap
is below the baseline of its link. The baseline is the mean output gap of the first samples of
the link that pass, in ascending order of their input gaps, where samples with the same gap keep
their order.

That order is stated with the numeric `≤`, while samples are sorted by the total order of bit
patterns. The two agree since the gaps of samples that pass are positive.

Nothing is asked of the query. If the wanted share is not a number, negative, or above one, the
number of samples in the baseline is still at least one and at most all.

## Contents

  * `Sample.PassesFilter`, `IsGapOrder`, `IsBaseline`: the documented steps, as relations.
  * `exists_baseline`: a link with samples that pass has exactly one baseline.
  * `IsMarking`: what a marked list is. The flags of its samples determine it.
  * `markCandidates_follows_cuts`: marking is that, and what follows from it.
-/

namespace ProbeGap

/-! ## §1. Samples that pass -/

/-- What the physical filter asks of a sample. A comparison with a number that is none fails. -/
structure Sample.PassesFilter (q : CandidateQuery Float) (s : Sample Float) : Prop where
  gin_pos : 0 < s.gin
  long_enough : q.packetSize ≤ s.length
  input_rate : s.length / s.gin < q.maxCapacity
  output_rate : s.length / s.gout < q.maxCapacity

theorem isEligible_iff {q : CandidateQuery Float} {s : Sample Float} :
    isEligible q s = true ↔ s.PassesFilter q := by
  unfold isEligible
  simp only [Bool.and_eq_true, decide_eq_true_eq]
  constructor
  · rintro ⟨⟨⟨hgin, hlength⟩, hinput⟩, houtput⟩
    exact ⟨hgin, hlength, hinput, houtput⟩
  · rintro ⟨hgin, hlength, hinput, houtput⟩
    exact ⟨⟨⟨hgin, hlength⟩, hinput⟩, houtput⟩

instance (q : CandidateQuery Float) (s : Sample Float) : Decidable (s.PassesFilter q) :=
  decidable_of_iff (isEligible q s = true) isEligible_iff

/-- The samples of a link that pass, in list order. -/
def passingOf (q : CandidateQuery Float) (link : LinkId) (xs : List (Sample Float)) :
    List (Sample Float) :=
  xs.filter fun s => s.link = link ∧ s.PassesFilter q

theorem passingOf_eq (q : CandidateQuery Float) (link : LinkId) (xs : List (Sample Float)) :
    passingOf q link xs = eligibleOf q link xs := by
  unfold passingOf eligibleOf
  rw [List.filter_filter]
  apply List.filter_congr
  intro s _
  simp [← isEligible_iff]

theorem mem_passingOf {q : CandidateQuery Float} {link : LinkId} {xs : List (Sample Float)}
    {s : Sample Float} : s ∈ passingOf q link xs ↔ s ∈ xs ∧ s.link = link ∧ s.PassesFilter q := by
  simp [passingOf]

/-! ## §2. The order of gaps -/

/-- The samples in ascending order of their input gaps. Those with the same gap keep their
order. -/
structure IsGapOrder (xs ordered : List (Sample Float)) : Prop where
  perm : ordered.Perm xs
  ascending : ordered.Pairwise fun a b => a.gin ≤ b.gin
  stable : ∀ gin : Float, ordered.filter (·.gin = gin) = xs.filter (·.gin = gin)

section order

variable {xs ordered other : List (Sample Float)}

/-- Samples with positive gaps are sorted by them. -/
theorem isGapOrder_byInputGap (hpos : ∀ s ∈ xs, 0 < s.gin) : IsGapOrder xs (byInputGap xs) where
  perm := sortBy_perm _ xs
  ascending := by
    have hsorted : (byInputGap xs).Pairwise fun a b => Scalar.totalLe a.gin b.gin = true :=
      pairwise_sortBy (fun a b => totalLe_total a.gin b.gin)
        (fun a b c => totalLe_trans a.gin b.gin c.gin) xs
    apply hsorted.imp_of_mem
    intro a b ha hb hle
    have ha' : 0 < a.gin := hpos a ((sortBy_perm _ xs).mem_iff.mp ha)
    have hb' : 0 < b.gin := hpos b ((sortBy_perm _ xs).mem_iff.mp hb)
    exact (totalLe_iff_le_of_pos ha' hb').mp hle
  stable := by
    intro gin
    apply filter_sortBy
    intro a b ha hb
    have hsame : a.gin = b.gin := (of_decide_eq_true ha).trans (of_decide_eq_true hb).symm
    have hself := totalLe_total b.gin b.gin
    rw [hsame]
    exact hself.elim id id

/-- The order keeps the groups under all keys of the total order, not only under those that are
the key of some gap. -/
theorem IsGapOrder.stable_key (h : IsGapOrder xs ordered) (key : UInt64) :
    ordered.filter (totalKey ·.gin = key) = xs.filter (totalKey ·.gin = key) := by
  by_cases hkey : ∃ s ∈ xs, totalKey s.gin = key
  · obtain ⟨s, -, rfl⟩ := hkey
    have hgap : ∀ t : Sample Float,
        decide (totalKey t.gin = totalKey s.gin) = decide (t.gin = s.gin) := by
      intro t
      rw [decide_eq_decide]
      exact ⟨totalKey_injective, congrArg totalKey⟩
    simp only [hgap]
    exact h.stable s.gin
  · have hnone : ∀ t ∈ xs, ¬ decide (totalKey t.gin = key) = true := by
      intro t ht htKey
      exact hkey ⟨t, ht, of_decide_eq_true htKey⟩
    rw [List.filter_eq_nil_iff.mpr hnone, List.filter_eq_nil_iff]
    intro t ht
    exact hnone t (h.perm.mem_iff.mp ht)

theorem IsGapOrder.ascending_key (h : IsGapOrder xs ordered) (hpos : ∀ s ∈ xs, 0 < s.gin) :
    ordered.Pairwise fun a b => ¬ totalKey b.gin < totalKey a.gin := by
  apply h.ascending.imp_of_mem
  intro a b ha hb hle
  have ha' : 0 < a.gin := hpos a (h.perm.mem_iff.mp ha)
  have hb' : 0 < b.gin := hpos b (h.perm.mem_iff.mp hb)
  have hkeys := totalLe_iff.mp ((totalLe_iff_le_of_pos ha' hb').mpr hle)
  exact UInt64.not_lt.mpr hkeys

/-- Samples with positive gaps can be put in order in one way only. -/
theorem IsGapOrder.unique (h : IsGapOrder xs ordered) (hother : IsGapOrder xs other)
    (hpos : ∀ s ∈ xs, 0 < s.gin) : ordered = other := by
  apply eq_of_ascending_of_groups (h.ascending_key hpos) (hother.ascending_key hpos)
  intro key
  rw [h.stable_key, hother.stable_key]

end order

/-! ## §3. Baselines -/

/-- The mean output gap of the first of the samples in gap order: of the wanted share of them,
rounded up and forced into the range from one to all. -/
inductive IsBaseline (q : CandidateQuery Float) (passing : List (Sample Float)) : Float → Prop where
  | mean (ordered : List (Sample Float)) (count : Nat) (order : IsGapOrder passing ordered)
      (share : count = min (max (Scalar.ceilCount
        (Scalar.ofNat passing.length * q.minConfidence)) 1) passing.length)
      (least : 1 ≤ count) (most : count ≤ ordered.length) :
      IsBaseline q passing
        (Scalar.sum ((ordered.take count).map (·.gout)) / Scalar.ofNat count)

section

variable {q : CandidateQuery Float} {link : LinkId} {xs ys : List (Sample Float)}

theorem gin_pos_of_mem_passingOf : ∀ s ∈ passingOf q link xs, 0 < s.gin :=
  fun _ hs => (mem_passingOf.mp hs).2.2.gin_pos

theorem isBaseline_baseline (hne : passingOf q link xs ≠ []) :
    IsBaseline q (passingOf q link xs) (baseline q (passingOf q link xs)) := by
  have hlength : 0 < (passingOf q link xs).length := List.length_pos_iff.mpr hne
  refine .mean _ _ (isGapOrder_byInputGap gin_pos_of_mem_passingOf) rfl ?_ ?_
  · show 1 ≤ min (max _ 1) _
    omega
  · rw [byInputGap, length_sortBy]
    exact Nat.min_le_right _ _

/-- A link has a baseline if any of its samples pass, and no other one. -/
theorem isBaseline_iff {base : Float} :
    IsBaseline q (passingOf q link xs) base ↔
      passingOf q link xs ≠ [] ∧ base = baseline q (passingOf q link xs) := by
  constructor
  · rintro ⟨ordered, count, order, share, least, most⟩
    constructor
    · intro hnil
      rw [order.perm.length_eq, hnil] at most
      exact absurd least (by simp at most; omega)
    · subst share
      rw [order.unique (isGapOrder_byInputGap gin_pos_of_mem_passingOf)
        gin_pos_of_mem_passingOf]
      rfl
  · rintro ⟨hne, rfl⟩
    exact isBaseline_baseline hne

theorem exists_baseline (hne : passingOf q link xs ≠ []) :
    ∃ base, IsBaseline q (passingOf q link xs) base ∧
      ∀ other, IsBaseline q (passingOf q link xs) other → other = base := by
  refine ⟨_, isBaseline_baseline hne, ?_⟩
  intro other hother
  exact (isBaseline_iff.mp hother).2

/-! ## §4. Marked lists -/

/-- Whether the cut of its link lets a sample be flagged. -/
def IsCut (q : CandidateQuery Float) (xs : List (Sample Float)) (s : Sample Float) : Prop :=
  s.PassesFilter q ∧ ∃ base, IsBaseline q (passingOf q s.link xs) base ∧ s.gin < base

/-- A list with the same samples, of which those are flagged that the cuts let be. -/
structure IsMarking (q : CandidateQuery Float) (xs ys : List (Sample Float)) : Prop where
  /-- The number of samples, their order and all their other fields are kept. -/
  unmarked : ys.map Sample.unmarked = xs.map Sample.unmarked
  used_iff : ∀ s ∈ ys, s.used = true ↔ IsCut q xs s

/-- The table of baselines decides by the cuts. -/
theorem isCandidate_iff {s : Sample Float} (hs : s ∈ xs) :
    isCandidate q (baselines q xs) s = true ↔ IsCut q xs s := by
  unfold isCandidate IsCut
  rw [get?_baselines, ← passingOf_eq, Bool.and_eq_true, isEligible_iff]
  constructor
  · rintro ⟨hpasses, hbelow⟩
    have hne : passingOf q s.link xs ≠ [] :=
      List.ne_nil_of_mem (mem_passingOf.mpr ⟨hs, rfl, hpasses⟩)
    rw [if_neg hne] at hbelow
    exact ⟨hpasses, _, isBaseline_baseline hne, of_decide_eq_true hbelow⟩
  · rintro ⟨hpasses, base, hbase, hbelow⟩
    obtain ⟨hne, rfl⟩ := isBaseline_iff.mp hbase
    rw [if_neg hne]
    exact ⟨hpasses, decide_eq_true hbelow⟩

/-- A cut does not look at the flag of the sample. -/
theorem isCut_congr {s t : Sample Float} (h : s.unmarked = t.unmarked) :
    IsCut q xs s ↔ IsCut q xs t := by
  obtain ⟨link, experiment, gin, gout, length, used, timestamp⟩ := s
  obtain ⟨link', experiment', gin', gout', length', used', timestamp'⟩ := t
  simp only [Sample.unmarked, Sample.mk.injEq] at h
  obtain ⟨rfl, rfl, rfl, rfl, rfl, -, rfl⟩ := h
  unfold IsCut
  rw [← isEligible_iff, ← isEligible_iff]
  exact Iff.rfl

theorem isMarking_markCandidates (q : CandidateQuery Float) (xs : List (Sample Float)) :
    IsMarking q xs (markCandidates q xs) where
  unmarked := map_unmarked_markCandidates q xs
  used_iff := by
    intro s hs
    obtain ⟨t, ht, rfl⟩ := List.mem_map.mp hs
    have hcut : IsCut q xs { t with used := isCandidate q (baselines q xs) t } ↔ IsCut q xs t :=
      isCut_congr rfl
    rw [hcut]
    exact isCandidate_iff ht

/-- Samples that differ in their flags at most are equal if the flags are. -/
theorem eq_of_map_unmarked {zs : List (Sample Float)}
    (h : ys.map Sample.unmarked = zs.map Sample.unmarked)
    (hused : ∀ y ∈ ys, ∀ z ∈ zs, y.unmarked = z.unmarked → y.used = z.used) : ys = zs := by
  induction ys generalizing zs with
  | nil => exact (List.map_eq_nil_iff.mp h.symm).symm
  | cons y ys ih =>
    cases zs with
    | nil => cases h
    | cons z zs =>
      obtain ⟨hhead, htail⟩ := List.cons.inj h
      have hflag := hused y List.mem_cons_self z List.mem_cons_self hhead
      have hyz : y = z := by
        cases y
        cases z
        simp only [Sample.unmarked, Sample.mk.injEq] at hhead hflag ⊢
        simp [hhead, hflag]
      rw [hyz, ih htail fun y' hy' z' hz' =>
        hused y' (List.mem_cons_of_mem _ hy') z' (List.mem_cons_of_mem _ hz')]

/-- No other list is a marking. -/
theorem IsMarking.unique {zs : List (Sample Float)} (hy : IsMarking q xs ys)
    (hz : IsMarking q xs zs) : ys = zs := by
  apply eq_of_map_unmarked (hy.unmarked.trans hz.unmarked.symm)
  intro y hmemY z hmemZ hsame
  rw [Bool.eq_iff_iff, hy.used_iff y hmemY, hz.used_iff z hmemZ]
  exact isCut_congr hsame

/-- Below a gap that is cut off nothing of the link is kept that passes. -/
theorem IsCut.of_le {s t : Sample Float} (ht : IsCut q xs t) (hlink : s.link = t.link)
    (hs : s.PassesFilter q) (hle : s.gin ≤ t.gin) : IsCut q xs s := by
  obtain ⟨-, base, hbase, hbelow⟩ := ht
  rw [← hlink] at hbase
  refine ⟨hs, base, hbase, ?_⟩
  have hsNumber := (isNaN_eq_false_of_lt hs.gin_pos).2
  obtain ⟨htNumber, hbaseNumber⟩ := isNaN_eq_false_of_lt hbelow
  rw [lt_iff_orderKey htNumber hbaseNumber] at hbelow
  rw [le_iff_orderKey hsNumber htNumber] at hle
  rw [lt_iff_orderKey hsNumber hbaseNumber]
  omega

end

/-! ## §5. Marking -/

/-- What is true of the marking of a list under a query. -/
structure FollowsCuts (q : CandidateQuery Float) (xs : List (Sample Float)) : Prop where
  /-- Wherever samples pass there is one baseline: some samples to take, no more than there are,
  and one way to order them. -/
  one_baseline : ∀ link, passingOf q link xs ≠ [] →
    ∃ base, IsBaseline q (passingOf q link xs) base ∧
      ∀ other, IsBaseline q (passingOf q link xs) other → other = base
  /-- Marking does what the cuts say and nothing else. -/
  marking_iff : ∀ ys, ys = markCandidates q xs ↔ IsMarking q xs ys
  /-- The flags that samples come with do not matter. -/
  flags_ignored : ∀ ys, ys.map Sample.unmarked = xs.map Sample.unmarked →
    markCandidates q ys = markCandidates q xs
  /-- Marking again changes nothing. -/
  again : markCandidates q (markCandidates q xs) = markCandidates q xs
  /-- A link is marked as if its samples were all there are. -/
  link_alone : ∀ link, (markCandidates q xs).filter (·.link = link)
    = markCandidates q (xs.filter (·.link = link))
  /-- What passes and has no larger gap than a flagged sample of the link is flagged. -/
  closed_below : ∀ s ∈ markCandidates q xs, ∀ t ∈ markCandidates q xs, s.link = t.link →
    t.used = true → s.PassesFilter q → s.gin ≤ t.gin → s.used = true

/-- Every list is marked by the cuts of its links, under every query. -/
theorem markCandidates_follows_cuts (q : CandidateQuery Float) (xs : List (Sample Float)) :
    FollowsCuts q xs where
  one_baseline := fun _ hne => exists_baseline hne
  marking_iff := by
    intro ys
    constructor
    · rintro rfl
      exact isMarking_markCandidates q xs
    · intro hys
      exact hys.unique (isMarking_markCandidates q xs)
  flags_ignored := fun _ h => markCandidates_congr q h
  again := markCandidates_congr q (map_unmarked_markCandidates q xs)
  link_alone := fun link => filter_markCandidates q link xs
  closed_below := by
    intro s hs t ht hlink hused hpasses hle
    have hmarking := isMarking_markCandidates q xs
    rw [hmarking.used_iff s hs]
    exact ((hmarking.used_iff t ht).mp hused).of_le hlink hpasses hle

/-- A share that is not a number takes one sample of each link. -/
example : (markCandidates ⟨1, 1250000, 1362, 0 / 0, none⟩
    [⟨1, 1, 0.002, 0.003, 1362, false, none⟩, ⟨1, 1, 0.004, 0.003, 1362, true, none⟩,
      ⟨2, 1, 0.004, 0.010, 1362, false, none⟩, ⟨2, 1, 0.008, 0.010, 1362, false, none⟩]).map
      (·.used) = [true, false, true, true] := by
  decide +kernel

end ProbeGap
