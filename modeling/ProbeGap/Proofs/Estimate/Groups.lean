import Mathlib.Data.List.Induction
import ProbeGap.Estimate.Experiment
import ProbeGap.Proofs.Table

/-!
# The groups of the used samples

Grouping shares out the used samples: each goes to the group of its link and to no other, a
group keeps the order of the list, no group is empty, and the links ascend. These properties
leave no choice. Whatever list of groups has them is the one that grouping gives, so they may
stand for it wherever groups are counted, looked up or fitted.

The table is built from the end of the list, one sample in front of its group at a time. It is
also what a run from the front makes, which puts each used sample behind its group
(`groupByLink_eq_foldl`). So what follows later in a list only adds to the ends of groups.

Main statement: `groupByLink_partitions_used`.
-/

namespace ProbeGap

variable {α : Type}

/-! ## §1. Groups -/

/-- The samples in the group of a link. A link without a group has none. -/
def groupOf (samples : List (Sample α)) (link : LinkId) : List (Sample α) :=
  ((groupByLink samples).get? link).getD []

/-- Groups, with their links, among which the used samples of a list are shared out. -/
structure IsUsedPartition (samples : List (Sample α)) (groups : List (LinkId × List (Sample α))) :
    Prop where
  /-- Links ascend strictly. -/
  ascending : groups.Pairwise (·.1 < ·.1)
  nonempty : ∀ g ∈ groups, g.2 ≠ []
  /-- A group has the used samples of its link, in the order of the list. -/
  own : ∀ g ∈ groups, g.2 = samples.filter fun s => s.used && s.link = g.1
  /-- One behind the other, the groups have every used sample as often as the list. -/
  perm : (groups.map (·.2)).flatten.Perm (usedSamples samples)

section

variable {samples : List (Sample α)} {link : LinkId}

theorem filter_usedSamples :
    (usedSamples samples).filter (·.link = link)
      = samples.filter fun s => s.used && s.link = link := by
  unfold usedSamples
  rw [List.filter_filter]
  apply List.filter_congr
  intro s _
  rw [Bool.and_comm]

/-- A link has a group if any of its samples is used, and then these are its group. -/
theorem mem_entries_groupByLink {group : List (Sample α)} :
    (link, group) ∈ (groupByLink samples).entries ↔
      group ≠ [] ∧ group = samples.filter fun s => s.used && s.link = link := by
  unfold groupByLink
  rw [← Table.get?_eq_some_iff, Table.get?_groupBy_eq_some_iff, filter_usedSamples]

theorem isUsedPartition_groupByLink : IsUsedPartition samples (groupByLink samples).entries where
  ascending := (groupByLink samples).ascending
  nonempty := by
    intro g hg
    exact (mem_entries_groupByLink.mp hg).1
  own := by
    intro g hg
    exact (mem_entries_groupByLink.mp hg).2
  perm := Table.flatten_groupBy_perm _ _

/-- A used sample is in the group of its link. -/
theorem IsUsedPartition.exists_group {groups : List (LinkId × List (Sample α))}
    (h : IsUsedPartition samples groups) {s : Sample α} (hs : s ∈ samples) (hused : s.used = true) :
    ∃ group, (s.link, group) ∈ groups := by
  have hmem : s ∈ (groups.map (·.2)).flatten := by
    rw [h.perm.mem_iff]
    exact List.mem_filter.mpr ⟨hs, hused⟩
  obtain ⟨group, hgroup, hsGroup⟩ := List.mem_flatten.mp hmem
  obtain ⟨g, hg, hgEq⟩ := List.mem_map.mp hgroup
  -- The group that has the sample has samples of one link only, so it is that of the sample.
  rw [← hgEq, h.own g hg] at hsGroup
  have hlink : s.link = g.1 := by simpa [hused] using (List.mem_filter.mp hsGroup).2
  exact ⟨g.2, by rw [hlink]; exact hg⟩

/-- No other groups share out the used samples. -/
theorem IsUsedPartition.unique {groups others : List (LinkId × List (Sample α))}
    (h : IsUsedPartition samples groups) (hothers : IsUsedPartition samples others) :
    groups = others := by
  have hsub : ∀ {gs hs : List (LinkId × List (Sample α))}, IsUsedPartition samples gs →
      IsUsedPartition samples hs → ∀ g ∈ gs, g ∈ hs := by
    intro gs hs hgs hhs g hg
    -- A group is not empty, and a sample of it leads to the group of its link among the others.
    obtain ⟨s, hs⟩ := List.exists_mem_of_ne_nil g.2 (hgs.nonempty g hg)
    have hgroup := hgs.own g hg
    rw [hgroup] at hs
    obtain ⟨hmem, hkept⟩ := List.mem_filter.mp hs
    obtain ⟨hused, hlink⟩ : s.used = true ∧ s.link = g.1 := by simpa using hkept
    obtain ⟨group, hother⟩ := hhs.exists_group hmem hused
    have hsame : group = g.2 := by
      rw [hgroup, ← hlink]
      exact hhs.own _ hother
    rw [hlink, hsame] at hother
    exact hother
  apply eq_of_ascending_of_mem_iff h.ascending hothers.ascending
  intro g
  exact ⟨hsub h hothers g, hsub hothers h g⟩

/-- The group of a link is the used samples of the link, in the order of the list. -/
theorem groupOf_eq_filter :
    groupOf samples link = samples.filter fun s => s.used && s.link = link := by
  unfold groupOf groupByLink
  rw [Table.get?_groupBy, filter_usedSamples]
  by_cases hempty : (samples.filter fun s => s.used && s.link = link) = []
  · simp [hempty]
  · simp [hempty]

end

/-! ## §2. A run from the front -/

/-- Put a sample behind its group, if it is used. -/
def pushUsed (groups : Table LinkId (List (Sample α))) (s : Sample α) :
    Table LinkId (List (Sample α)) :=
  if s.used then groups.update s.link fun group => group.getD [] ++ [s] else groups

theorem groupByLink_append_singleton (samples : List (Sample α)) (s : Sample α) :
    groupByLink (samples ++ [s]) = pushUsed (groupByLink samples) s := by
  unfold groupByLink pushUsed usedSamples
  cases hused : s.used with
  | true => simp [hused, Table.groupBy_append_singleton]
  | false => simp [hused]

/-- Groups are also made from the front, sample by sample. -/
theorem groupByLink_eq_foldl (samples : List (Sample α)) :
    groupByLink samples = samples.foldl pushUsed .empty := by
  induction samples using List.reverseRecOn with
  | nil => rfl
  | append_singleton samples s ih =>
    rw [groupByLink_append_singleton, List.foldl_append, ← ih]
    rfl

/-! ## §3. The partition -/

/-- Grouping shares out the used samples by their links, in the one way in which that can be
done. A link has the used samples of a list and then those of another if the lists are grouped
together, and each sample is put behind its group when its turn comes. -/
theorem groupByLink_partitions_used (samples : List (Sample α)) :
    (∀ groups, groups = (groupByLink samples).entries ↔ IsUsedPartition samples groups) ∧
      (∀ link, (groupOf samples link = samples.filter fun s => s.used && s.link = link) ∧
        (groupOf samples link).Sublist samples) ∧
      (∀ more link, groupOf (samples ++ more) link = groupOf samples link ++ groupOf more link) ∧
      groupByLink samples = samples.foldl pushUsed .empty := by
  refine ⟨?_, ?_, ?_, groupByLink_eq_foldl samples⟩
  · intro groups
    constructor
    · intro hgroups
      rw [hgroups]
      exact isUsedPartition_groupByLink
    · intro hgroups
      exact hgroups.unique isUsedPartition_groupByLink
  · intro link
    rw [groupOf_eq_filter]
    exact ⟨rfl, List.filter_sublist⟩
  · intro more link
    simp only [groupOf_eq_filter, List.filter_append]

/-- Samples of two links, one of which has an unused sample as well. -/
example : ((groupByLink [⟨3, 1, 1, 0, 0, true, none⟩, ⟨2, 1, 2, 0, 0, false, none⟩,
    ⟨1, 1, 3, 0, 0, true, none⟩, ⟨3, 1, 4, 0, 0, true, none⟩]).entries.map fun g =>
      (g.1, g.2.map (·.gin))) = [(1, [3]), (3, [(1 : Nat), 4])] := by
  decide

end ProbeGap
