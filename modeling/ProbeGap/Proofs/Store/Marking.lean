import ProbeGap.Estimate.Experiment
import ProbeGap.Proofs.Sorting
import ProbeGap.Proofs.Table
import ProbeGap.Store.Marking

/-!
# What marking looks at

The flags of all links are decided at once, but the flags of a link are decided by its own
samples. A sample looks at the baseline of its link and at no other, and that baseline is
formed from the eligible samples of the link. So to mark a list and then keep a link comes to
the same as to keep the link and then mark (`filter_markCandidates`), and lists that share no
link are marked as if each were alone (`markCandidates_flatten`).

Of the eligible samples a baseline takes the gaps and nothing else (`baseline_eq`). So the
flags that samples come with do not matter (`markCandidates_congr`).
-/

namespace ProbeGap

variable {α : Type} [Scalar α]

/-! ## §1. The samples of a link -/

/-- The eligible samples of a link. -/
def eligibleOf (q : CandidateQuery α) (link : LinkId) (xs : List (Sample α)) :
    List (Sample α) :=
  (xs.filter (isEligible q)).filter (·.link = link)

/-- The other links have no part in the eligible samples of a link. -/
theorem eligibleOf_filter_link (q : CandidateQuery α) (link : LinkId) (xs : List (Sample α)) :
    eligibleOf q link (xs.filter (·.link = link)) = eligibleOf q link xs := by
  unfold eligibleOf
  rw [List.filter_filter, List.filter_filter, List.filter_filter]
  apply List.filter_congr
  intro x _
  cases decide (x.link = link) <;> cases isEligible q x <;> rfl

/-- A link has a baseline if it has eligible samples, and it is made from those alone. -/
theorem get?_baselines (q : CandidateQuery α) (link : LinkId) (xs : List (Sample α)) :
    (baselines q xs).get? link =
      if eligibleOf q link xs = [] then none else some (baseline q (eligibleOf q link xs)) := by
  unfold baselines
  rw [Table.get?_map, Table.get?_groupBy]
  unfold eligibleOf
  by_cases hempty : (xs.filter (isEligible q)).filter (·.link = link) = []
  · rw [if_pos hempty, if_pos hempty]
    rfl
  · rw [if_neg hempty, if_neg hempty]
    rfl

theorem isCandidate_congr (q : CandidateQuery α) {bases others : Table LinkId α} {x : Sample α}
    (h : bases.get? x.link = others.get? x.link) :
    isCandidate q bases x = isCandidate q others x := by
  unfold isCandidate
  rw [h]

/-- The marked samples of a link are the samples of the link, marked without the others. -/
theorem filter_markCandidates (q : CandidateQuery α) (link : LinkId) (xs : List (Sample α)) :
    (markCandidates q xs).filter (·.link = link) =
      markCandidates q (xs.filter (·.link = link)) := by
  have hbase : (baselines q (xs.filter (·.link = link))).get? link
      = (baselines q xs).get? link := by
    rw [get?_baselines, get?_baselines, eligibleOf_filter_link]
  unfold markCandidates
  rw [List.filter_map]
  -- The new flag does not move a sample to another link, so the same samples are kept.
  show (xs.filter (·.link = link)).map _ = _
  apply List.map_congr_left
  intro x hx
  have hlink : x.link = link := of_decide_eq_true (List.mem_filter.mp hx).2
  have hflag : isCandidate q (baselines q xs) x
      = isCandidate q (baselines q (xs.filter (·.link = link))) x := by
    apply isCandidate_congr
    rw [hlink]
    exact hbase.symm
  rw [hflag]

/-- Among samples of one link there is one baseline, that of the eligible ones. -/
theorem isCandidate_of_one_link {q : CandidateQuery α} {link : LinkId} {xs : List (Sample α)}
    (hlink : ∀ x ∈ xs, x.link = link) {x : Sample α} (hx : x ∈ xs) :
    isCandidate q (baselines q xs) x =
      (isEligible q x && decide (x.gin < baseline q (xs.filter (isEligible q)))) := by
  have hall : eligibleOf q link xs = xs.filter (isEligible q) := by
    unfold eligibleOf
    rw [List.filter_eq_self]
    intro y hy
    exact decide_eq_true (hlink y (List.mem_filter.mp hy).1)
  unfold isCandidate
  rw [hlink x hx, get?_baselines, hall]
  by_cases heligible : isEligible q x = true
  · have hne : xs.filter (isEligible q) ≠ [] :=
      List.ne_nil_of_mem (List.mem_filter.mpr ⟨hx, heligible⟩)
    rw [if_neg hne]
  · rw [eq_false_of_ne_true heligible, Bool.false_and, Bool.false_and]

/-! ## §2. Gaps -/

/-- The input gap and the output gap of a sample. -/
def Sample.gaps (s : Sample α) : α × α :=
  (s.gin, s.gout)

/-- The gaps of the eligible samples of a link. -/
def linkGaps (q : CandidateQuery α) (link : LinkId) (xs : List (Sample α)) : List (α × α) :=
  (eligibleOf q link xs).map Sample.gaps

/-- The mean of the output gaps that come with the smallest input gaps. -/
def baselineOfGaps (q : CandidateQuery α) (gaps : List (α × α)) : α :=
  let first := (sortBy (fun g h => Scalar.totalLe g.1 h.1) gaps).take
    (baselineCount q gaps.length)
  Scalar.sum (first.map (·.2)) / Scalar.ofNat (baselineCount q gaps.length)

/-- A baseline is made from gaps alone. -/
theorem baseline_eq (q : CandidateQuery α) (eligible : List (Sample α)) :
    baseline q eligible = baselineOfGaps q (eligible.map Sample.gaps) := by
  unfold baseline baselineOfGaps byInputGap
  dsimp only
  rw [sortBy_map, List.length_map, ← List.map_take, List.map_map]
  rfl

/-- Lists whose links have the same baselines have the same table of baselines. -/
theorem baselines_eq_of_linkGaps {q : CandidateQuery α} {xs ys : List (Sample α)}
    (hempty : ∀ link, linkGaps q link xs = [] ↔ linkGaps q link ys = [])
    (hbase : ∀ link,
      baselineOfGaps q (linkGaps q link xs) = baselineOfGaps q (linkGaps q link ys)) :
    baselines q xs = baselines q ys := by
  apply Table.eq_of_get?_eq
  intro link
  have hlink := hempty link
  unfold linkGaps at hlink hbase
  rw [List.map_eq_nil_iff, List.map_eq_nil_iff] at hlink
  rw [get?_baselines, get?_baselines, baseline_eq, baseline_eq, hbase link]
  by_cases hnil : eligibleOf q link xs = []
  · rw [if_pos hnil, if_pos (hlink.mp hnil)]
  · rw [if_neg hnil, if_neg (mt hlink.mpr hnil)]

/-! ## §3. Flags that samples come with -/

/-- A sample without its flag. -/
def Sample.unmarked (s : Sample α) : Sample α :=
  { s with used := false }

theorem linkGaps_map_unmarked (q : CandidateQuery α) (link : LinkId) (xs : List (Sample α)) :
    linkGaps q link (xs.map Sample.unmarked) = linkGaps q link xs := by
  unfold linkGaps eligibleOf
  rw [List.filter_map, List.filter_map, List.map_map]
  rfl

theorem markCandidates_map_unmarked (q : CandidateQuery α) (xs : List (Sample α)) :
    markCandidates q (xs.map Sample.unmarked) = markCandidates q xs := by
  have hbases : baselines q (xs.map Sample.unmarked) = baselines q xs := by
    apply baselines_eq_of_linkGaps
    · intro link
      rw [linkGaps_map_unmarked]
    · intro link
      rw [linkGaps_map_unmarked]
  unfold markCandidates
  rw [hbases, List.map_map]
  rfl

/-- Samples that differ in their flags only are marked alike. -/
theorem markCandidates_congr (q : CandidateQuery α) {xs ys : List (Sample α)}
    (h : xs.map Sample.unmarked = ys.map Sample.unmarked) :
    markCandidates q xs = markCandidates q ys := by
  rw [← markCandidates_map_unmarked q xs, h, markCandidates_map_unmarked]

/-- Marking changes nothing but flags. -/
theorem map_unmarked_markCandidates (q : CandidateQuery α) (xs : List (Sample α)) :
    (markCandidates q xs).map Sample.unmarked = xs.map Sample.unmarked := by
  unfold markCandidates
  rw [List.map_map]
  rfl

/-! ## §4. What is marked -/

/-- A sample that takes part in the regression. -/
def Sample.marked (s : Sample α) : Sample α :=
  { s with used := true }

/-- The samples with the flags that a table of baselines gives them. -/
def markBy (q : CandidateQuery α) (bases : Table LinkId α) (xs : List (Sample α)) :
    List (Sample α) :=
  xs.map fun s => { s with used := isCandidate q bases s }

theorem markCandidates_eq_markBy (q : CandidateQuery α) (xs : List (Sample α)) :
    markCandidates q xs = markBy q (baselines q xs) xs :=
  rfl

/-- The samples that are used after marking are those below the cut of their link. -/
theorem usedSamples_markBy (q : CandidateQuery α) (bases : Table LinkId α)
    (xs : List (Sample α)) :
    usedSamples (markBy q bases xs) = (xs.filter (isCandidate q bases)).map Sample.marked := by
  unfold usedSamples markBy
  rw [List.filter_map]
  apply List.map_congr_left
  intro s hs
  have hflag : isCandidate q bases s = true := (List.mem_filter.mp hs).2
  rw [hflag]
  rfl

/-! ## §5. Lists without common links -/

/-- A list is marked alike beside another one that has no link of it. -/
theorem markCandidates_append {q : CandidateQuery α} {xs ys : List (Sample α)}
    (hdisjoint : ∀ x ∈ xs, ∀ y ∈ ys, x.link ≠ y.link) :
    markCandidates q (xs ++ ys) = markCandidates q xs ++ markCandidates q ys := by
  have happend : ∀ link, eligibleOf q link (xs ++ ys)
      = eligibleOf q link xs ++ eligibleOf q link ys := by
    intro link
    unfold eligibleOf
    rw [List.filter_append, List.filter_append]
  have hleft : ∀ x ∈ xs, eligibleOf q x.link ys = [] := by
    intro x hx
    unfold eligibleOf
    rw [List.filter_eq_nil_iff]
    intro y hy hlink
    exact hdisjoint x hx y (List.mem_filter.mp hy).1 (of_decide_eq_true hlink).symm
  have hright : ∀ y ∈ ys, eligibleOf q y.link xs = [] := by
    intro y hy
    unfold eligibleOf
    rw [List.filter_eq_nil_iff]
    intro x hx hlink
    exact hdisjoint x (List.mem_filter.mp hx).1 y hy (of_decide_eq_true hlink)
  unfold markCandidates
  rw [List.map_append]
  congr 1
  · apply List.map_congr_left
    intro x hx
    have hbase : (baselines q (xs ++ ys)).get? x.link = (baselines q xs).get? x.link := by
      rw [get?_baselines, get?_baselines, happend, hleft x hx, List.append_nil]
    rw [isCandidate_congr q hbase]
  · apply List.map_congr_left
    intro y hy
    have hbase : (baselines q (xs ++ ys)).get? y.link = (baselines q ys).get? y.link := by
      rw [get?_baselines, get?_baselines, happend, hright y hy, List.nil_append]
    rw [isCandidate_congr q hbase]

/-- Lists no two of which have a common link are marked as if each were alone. -/
theorem markCandidates_flatten {q : CandidateQuery α} {xss : List (List (Sample α))}
    (hdisjoint : xss.Pairwise fun xs ys => ∀ x ∈ xs, ∀ y ∈ ys, x.link ≠ y.link) :
    markCandidates q xss.flatten = (xss.map (markCandidates q)).flatten := by
  induction xss with
  | nil => rfl
  | cons xs xss ih =>
    obtain ⟨hhead, htail⟩ := List.pairwise_cons.mp hdisjoint
    rw [List.flatten_cons, List.map_cons, List.flatten_cons, ← ih htail]
    apply markCandidates_append
    intro x hx y hy
    obtain ⟨ys, hys, hmem⟩ := List.mem_flatten.mp hy
    exact hhead ys hys x hx y hmem

end ProbeGap
