import ProbeGap.Estimate.Record
import ProbeGap.Proofs.Numeric.Patterns
import ProbeGap.Proofs.Regression.Median

/-!
# The median as an order statistic

The median is read off the middle of the sorted list (`isMiddle_middle`), and where values stand in
the sorted list tells how many others are in front of them or behind (`countP_in_front_le`,
`countP_behind_le`). Both hold whatever the values are. That the list can be sorted in one way only
takes an order that is linear, which that of all bit patterns is, with two zeros and many patterns
that are not a number. So the median depends on the members of a list and not on how they were
ordered.

The scale of residuals is a median of absolute values, so it does not depend on signs either, and
the median of a report does not depend on the order of its rows. The main result is
`median_is_order_statistic`. It is stated of doubles and of patterns, and the two readings give the
same median.

A value that more than half of the members have is in the middle if none is in front of it
(`median_of_majority`).
-/

namespace ProbeGap

/-! ## §1. The middle of a sorted list -/

theorem eq_take_append_cons_drop {β : Type} {s : List β} {i : Nat} (h : i < s.length) :
    s = s.take i ++ s.get ⟨i, h⟩ :: s.drop (i + 1) := by
  rw [List.get_eq_getElem, List.getElem_cons_drop, List.take_append_drop]

section middle

variable {α : Type} [Scalar α] {s : List α}

theorem middle_of_odd (h : s.length % 2 = 1) :
    middle s = s.get ⟨s.length / 2, by omega⟩ := by
  unfold middle
  rw [dif_neg (by omega), if_pos h]

theorem middle_of_even (hsome : s.length ≠ 0) (h : s.length % 2 = 0) :
    middle s = (s.get ⟨s.length / 2 - 1, by omega⟩ + s.get ⟨s.length / 2, by omega⟩)
      / Scalar.ofNat 2 := by
  unfold middle
  rw [dif_neg hsome, if_neg (by omega)]

/-- A value is the middle of a list in order: the middle member, or half the sum of the two middle
ones, with as many members in front as behind. -/
structure IsMiddle (m : α) (s : List α) : Prop where
  of_empty : s = [] → m = Scalar.zero
  of_odd : s.length % 2 = 1 → ∃ before after, s = before ++ m :: after ∧
    before.length = s.length / 2 ∧ after.length = s.length / 2
  of_even : s ≠ [] → s.length % 2 = 0 → ∃ before low high after,
    s = before ++ low :: high :: after ∧ before.length = after.length ∧
      m = (low + high) / Scalar.ofNat 2

theorem isMiddle_middle (s : List α) : IsMiddle (middle s) s where
  of_empty h := by
    rw [h]
    rfl
  of_odd h := by
    have hplace : s.length / 2 < s.length := by omega
    refine ⟨s.take (s.length / 2), s.drop (s.length / 2 + 1), ?_, ?_, ?_⟩
    · rw [middle_of_odd h]
      exact eq_take_append_cons_drop hplace
    · rw [List.length_take]
      omega
    · rw [List.length_drop]
      omega
  of_even hsome h := by
    have hlength : s.length ≠ 0 := mt List.length_eq_zero_iff.mp hsome
    refine ⟨s.take (s.length / 2 - 1), s.get ⟨s.length / 2 - 1, by omega⟩,
      s.get ⟨s.length / 2, by omega⟩, s.drop (s.length / 2 + 1), ?_, ?_, middle_of_even hlength h⟩
    · have hhigh : s.drop (s.length / 2 - 1 + 1) =
          s.get ⟨s.length / 2, by omega⟩ :: s.drop (s.length / 2 + 1) := by
        rw [Nat.sub_add_cancel (by omega)]
        exact (List.getElem_cons_drop (by omega)).symm
      rw [← hhigh]
      exact eq_take_append_cons_drop (by omega)
    · rw [List.length_take, List.length_drop]
      omega

end middle

/-! ## §2. Rank -/

theorem length_sort {α : Type} [Scalar α] (xs : List α) :
    (Scalar.sort xs).length = xs.length :=
  length_sortBy Scalar.totalLe xs

section rank

variable {α : Type} [Scalar α] [Scalar.SortsOneWay α] {xs before after : List α} {m : α}

/-- A member of the sorted list comes after no more values than stand in front of it. -/
theorem countP_in_front_le (h : Scalar.sort xs = before ++ m :: after) :
    xs.countP (fun x => !Scalar.totalLe m x) ≤ before.length := by
  have hsorted := pairwise_sortBy Scalar.SortsOneWay.total Scalar.SortsOneWay.trans xs
  have hsort : sortBy Scalar.totalLe xs = before ++ m :: after := h
  rw [hsort] at hsorted
  have hbehind : ∀ x ∈ m :: after, ¬ (!Scalar.totalLe m x) = true := by
    have htail := (List.pairwise_append.mp hsorted).2.1
    intro x hx
    rcases List.mem_cons.mp hx with rfl | hx
    · simpa using Scalar.SortsOneWay.total x x
    · simpa using (List.pairwise_cons.mp htail).1 x hx
  rw [← (sortBy_perm Scalar.totalLe xs).countP_eq, hsort, List.countP_append,
    List.countP_eq_zero.mpr hbehind]
  exact List.countP_le_length

/-- A member of the sorted list comes before no more values than stand behind it. -/
theorem countP_behind_le (h : Scalar.sort xs = before ++ m :: after) :
    xs.countP (fun x => !Scalar.totalLe x m) ≤ after.length := by
  have hsorted := pairwise_sortBy Scalar.SortsOneWay.total Scalar.SortsOneWay.trans xs
  have hsort : sortBy Scalar.totalLe xs = before ++ m :: after := h
  rw [hsort] at hsorted
  have hfront : ∀ x ∈ before, ¬ (!Scalar.totalLe x m) = true := by
    intro x hx
    simpa using (List.pairwise_append.mp hsorted).2.2 x hx m List.mem_cons_self
  have hself : ¬ (!Scalar.totalLe m m) = true := by
    simpa using Scalar.SortsOneWay.total m m
  rw [← (sortBy_perm Scalar.totalLe xs).countP_eq, hsort, List.countP_append,
    List.countP_eq_zero.mpr hfront, List.countP_cons, if_neg hself, Nat.zero_add, Nat.add_zero]
  exact List.countP_le_length

/-- Where no value is in front of `z`, a member of the sorted list is `z` if fewer members stand in
front of it than there are that `z` is not in front of. -/
theorem eq_of_sort {z : α} (h : Scalar.sort xs = before ++ m :: after)
    (hleast : ∀ x ∈ xs, Scalar.totalLe z x = true)
    (hmany : before.length < xs.countP (Scalar.totalLe · z)) : m = z := by
  have hmem : m ∈ xs := by
    rw [← (sortBy_perm Scalar.totalLe xs).mem_iff, show sortBy Scalar.totalLe xs = _ from h]
    exact List.mem_append_right _ List.mem_cons_self
  by_contra hne
  -- Otherwise it is behind `z`, and then too many members stand in front of it.
  have hbehind : ¬ Scalar.totalLe m z = true :=
    fun hle => hne (Scalar.SortsOneWay.antisymm m z hle (hleast m hmem))
  have hfront : xs.countP (Scalar.totalLe · z) ≤ xs.countP (fun x => !Scalar.totalLe m x) := by
    apply List.countP_mono_left
    intro x _ hx
    have hnot : ¬ Scalar.totalLe m x = true :=
      fun hle => hbehind (Scalar.SortsOneWay.trans m x z hle hx)
    simpa using hnot
  have hrank := countP_in_front_le h
  omega

/-- A value that none is in front of is in the middle if more than half of the list has it. -/
theorem median_of_majority {z : α} (hleast : ∀ x ∈ xs, Scalar.totalLe z x = true)
    (hmany : xs.length < 2 * xs.countP (Scalar.totalLe · z)) :
    median xs = z ∨ median xs = (z + z) / Scalar.ofNat 2 := by
  have hmiddle := isMiddle_middle (Scalar.sort xs)
  have hlength := length_sort xs
  rcases Nat.mod_two_eq_zero_or_one (Scalar.sort xs).length with heven | hodd
  · have hsome : Scalar.sort xs ≠ [] := by
      intro hnil
      rw [hnil] at hlength
      have hcount := List.countP_le_length (p := (Scalar.totalLe · z)) (l := xs)
      simp only [List.length_nil] at hlength
      omega
    obtain ⟨before, low, high, after, hsplit, hsame, hmedian⟩ := hmiddle.of_even hsome heven
    have htotal := congrArg List.length hsplit
    simp only [List.length_append, List.length_cons] at htotal
    have hlow : low = z := eq_of_sort hsplit hleast (by omega)
    have hhigh : high = z := by
      have hsplit' : Scalar.sort xs = (before ++ [low]) ++ high :: after := by
        rw [hsplit, List.append_assoc, List.singleton_append]
      have hplace : (before ++ [low]).length = before.length + 1 := List.length_append
      exact eq_of_sort hsplit' hleast (by omega)
    rw [hlow, hhigh] at hmedian
    exact Or.inr hmedian
  · obtain ⟨before, after, hsplit, hbefore, -⟩ := hmiddle.of_odd hodd
    exact Or.inl (eq_of_sort hsplit hleast (by omega))

end rank

/-! ## §3. What the median depends on -/

section dependence

variable {α : Type} [Scalar α]

/-- What sorting does to a list, and where its median is then. -/
structure IsOrderStatistic (xs : List α) : Prop where
  permutation : (Scalar.sort xs).Perm xs
  ascending : (Scalar.sort xs).Pairwise (Scalar.totalLe · · = true)
  any_order : ∀ ys, ys.Perm xs → Scalar.sort ys = Scalar.sort xs ∧ median ys = median xs
  middle : IsMiddle (median xs) (Scalar.sort xs)
  rank : xs.length % 2 = 1 → median xs ∈ xs ∧
    xs.countP (fun x => !Scalar.totalLe (median xs) x) ≤ xs.length / 2 ∧
    xs.countP (fun x => !Scalar.totalLe x (median xs)) ≤ xs.length / 2

theorem isOrderStatistic [Scalar.SortsOneWay α] (xs : List α) : IsOrderStatistic xs where
  permutation := sortBy_perm Scalar.totalLe xs
  ascending := pairwise_sortBy Scalar.SortsOneWay.total Scalar.SortsOneWay.trans xs
  any_order _ h := ⟨Scalar.sort_eq_of_perm h, median_eq_of_perm h⟩
  middle := isMiddle_middle (Scalar.sort xs)
  rank h := by
    have hodd : (Scalar.sort xs).length % 2 = 1 := by rwa [length_sort]
    obtain ⟨before, after, hsplit, hbefore, hafter⟩ :=
      (isMiddle_middle (Scalar.sort xs)).of_odd hodd
    have hmem : median xs ∈ Scalar.sort xs := by
      rw [hsplit]
      exact List.mem_append_right _ List.mem_cons_self
    rw [length_sort] at hbefore hafter
    refine ⟨(sortBy_perm Scalar.totalLe xs).mem_iff.mp hmem, ?_, ?_⟩
    · rw [← hbefore]
      exact countP_in_front_le hsplit
    · rw [← hafter]
      exact countP_behind_le hsplit

/-- Two lists have the same members up to sign, place by place. -/
def IsSignFlip [Neg α] (xs ys : List α) : Prop :=
  List.Forall₂ (fun x y => y = x ∨ y = -x) xs ys

/-- What the scale of residuals does not depend on. -/
structure IsScale [Neg α] (xs : List α) : Prop where
  any_order : ∀ ys, ys.Perm xs → medianScale ys = medianScale xs
  any_signs : ∀ ys, IsSignFlip xs ys → medianScale ys = medianScale xs

theorem IsSignFlip.map_abs [Neg α] (habs : ∀ x : α, Scalar.abs (-x) = Scalar.abs x)
    {xs ys : List α} (h : IsSignFlip xs ys) : ys.map Scalar.abs = xs.map Scalar.abs := by
  induction h with
  | nil => rfl
  | cons hxy _ ih =>
    rw [List.map_cons, List.map_cons, ih]
    rcases hxy with rfl | rfl
    · rfl
    · rw [habs]

theorem isScale [Scalar.SortsOneWay α] [Neg α] (habs : ∀ x : α, Scalar.abs (-x) = Scalar.abs x)
    (xs : List α) : IsScale xs where
  any_order _ h := medianScale_eq_of_perm h
  any_signs ys h := by
    unfold medianScale
    rw [h.map_abs habs]

end dependence

/-! ## §4. Patterns -/

namespace Pattern

instance : Scalar.SortsOneWay Pattern where
  total p q := by
    rw [totalLe_iff, totalLe_iff]
    exact UInt64.le_total _ _
  trans p q r hpq hqr := by
    rw [totalLe_iff] at hpq hqr ⊢
    exact UInt64.le_trans hpq hqr
  antisymm p q hpq hqp := by
    rw [totalLe_iff] at hpq hqp
    exact congrArg Pattern.mk (totalKeyOfBits_injective (UInt64.le_antisymm hpq hqp))

theorem middle_ofFloat (s : List Float) : middle (s.map ofFloat) = ofFloat (middle s) := by
  -- The members are picked by their places, which the conversion does not change.
  unfold middle
  simp only [List.length_map, List.get_eq_getElem, List.getElem_map]
  by_cases hempty : s.length = 0
  · rw [dif_pos hempty, dif_pos hempty]
    rfl
  · rw [dif_neg hempty, dif_neg hempty]
    by_cases hodd : s.length % 2 = 1
    · rw [if_pos hodd, if_pos hodd]
    · rw [if_neg hodd, if_neg hodd, add_ofFloat]
      exact div_ofFloat _ _

/-- A list of doubles has the same median as the list of their patterns. -/
theorem median_ofFloat (xs : List Float) : median (xs.map ofFloat) = ofFloat (median xs) := by
  have hsort : Scalar.sort (xs.map ofFloat) = (Scalar.sort xs).map ofFloat :=
    sortBy_map Scalar.totalLe ofFloat xs
  unfold median
  rw [hsort, middle_ofFloat]

theorem medianScale_ofFloat (residuals : List Float) :
    medianScale (residuals.map ofFloat) = ofFloat (medianScale residuals) := by
  have habs : (residuals.map ofFloat).map Scalar.abs
      = (residuals.map Scalar.abs).map ofFloat := by
    rw [List.map_map, List.map_map]
    exact List.map_congr_left fun x _ => abs_ofFloat x
  have hnormal : (normalMedian : Pattern) = ofFloat normalMedian := by decide +kernel
  unfold medianScale
  rw [habs, median_ofFloat, hnormal, div_ofFloat]

end Pattern

/-! ## §5. Rows -/

/-- The median of rows does not depend on their order. -/
theorem ExperimentEstimates.medianBits_eq_of_perm {e e' : ExperimentEstimates}
    (h : e'.links.Perm e.links) : e'.medianBits = e.medianBits := by
  have hvalues := h.filterMap (·.estimateBits)
  unfold ExperimentEstimates.medianBits
  dsimp only
  rw [hvalues.isEmpty_eq, median_eq_of_perm hvalues]

/-- There is a median of rows unless none of them has an estimate. -/
theorem ExperimentEstimates.medianBits_eq_none_iff {e : ExperimentEstimates} :
    e.medianBits = none ↔ ∀ r ∈ e.links, r.estimate = none := by
  have hvalues : e.links.filterMap (·.estimateBits) = [] ↔
      ∀ r ∈ e.links, r.estimate = none := by
    rw [List.filterMap_eq_nil_iff]
    unfold LinkRecord.estimateBits
    simp only [Option.map_eq_none_iff]
  rw [← hvalues]
  unfold ExperimentEstimates.medianBits
  simp

/-! ## §6. The median -/

/-- The median of a list of doubles is the middle of its members in the total order of their bits,
or half the sum of the two middle ones, or zero, and nothing but the members decides it. So the
scale of residuals depends neither on their order nor on their signs, and the median of rows not on
their order. All of this is also true of lists of patterns, in which what is not a number has a sign
and a payload. -/
theorem median_is_order_statistic :
    (∀ xs : List Float, IsOrderStatistic xs ∧ IsScale xs) ∧
      (∀ xs : List Pattern, IsOrderStatistic xs ∧ IsScale xs) ∧
      (∀ xs : List Float, median (xs.map Pattern.ofFloat) = Pattern.ofFloat (median xs) ∧
        medianScale (xs.map Pattern.ofFloat) = Pattern.ofFloat (medianScale xs)) ∧
      ∀ e : ExperimentEstimates,
        (∀ e' : ExperimentEstimates, e'.links.Perm e.links → e'.medianBits = e.medianBits) ∧
        (e.medianBits = none ↔ ∀ r ∈ e.links, r.estimate = none) := by
  refine ⟨?_, ?_, ?_, ?_⟩
  · exact fun xs => ⟨isOrderStatistic xs, isScale abs_neg xs⟩
  · exact fun xs => ⟨isOrderStatistic xs, isScale Pattern.abs_neg xs⟩
  · exact fun xs => ⟨Pattern.median_ofFloat xs, Pattern.medianScale_ofFloat xs⟩
  · exact fun e => ⟨fun _ => ExperimentEstimates.medianBits_eq_of_perm,
      ExperimentEstimates.medianBits_eq_none_iff⟩

/-- What is not a number and has a sign bit is in front of all numbers, wherever it stands in the
list. -/
theorem median_of_signed_nan :
    median [Pattern.ofFloat 2, .ofFloat 1, ⟨0xfff8000000000000⟩] = .ofFloat 1 ∧
      median [Pattern.ofFloat 2, ⟨0xfff8000000000000⟩, .ofFloat 1] = .ofFloat 1 := by
  obtain ⟨-, hpatterns, -⟩ := median_is_order_statistic
  have hlast : median [Pattern.ofFloat 2, .ofFloat 1, ⟨0xfff8000000000000⟩] = .ofFloat 1 := by
    decide +kernel
  have hswap : List.Perm [Pattern.ofFloat 2, ⟨0xfff8000000000000⟩, .ofFloat 1]
      [Pattern.ofFloat 2, .ofFloat 1, ⟨0xfff8000000000000⟩] :=
    (List.Perm.swap _ _ []).cons _
  obtain ⟨-, hmedian⟩ := (hpatterns _).1.any_order _ hswap
  exact ⟨hlast, hmedian.trans hlast⟩

end ProbeGap
