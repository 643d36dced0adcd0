import ProbeGap.Proofs.Estimate.Experiment
import ProbeGap.Proofs.Estimate.Lookup
import ProbeGap.Proofs.Fallible

/-!
# The books of an experiment

A result counts what it was made from: the rows that the query returned, the used ones
among them, and for every link its own. `ExperimentEstimates.Balances` states that these
counts agree with the rows of the query and with each other, so that no link is lost,
repeated or counted twice on the way through grouping, estimation and assembly.

What carries it is the order of the groups. Their links ascend strictly, which makes the
rows of the result distinct and the look-up by halving right.
-/

namespace ProbeGap

/-! ## §1. The books -/

/-- The result agrees with the rows that the query returned. -/
structure ExperimentEstimates.Balances (e : ExperimentEstimates)
    (rows : List (Sample Float)) : Prop where
  /-- Links ascend strictly. -/
  ascending : e.links.Pairwise (·.link < ·.link)
  /-- Exactly the links with a used row were attempted. -/
  attempted : ∀ link,
    (∃ r ∈ e.links, r.link = link) ↔ ∃ s ∈ rows, s.used = true ∧ s.link = link
  /-- A row of the result counts the used rows of its link. -/
  own_samples : ∀ r ∈ e.links, r.samples = rows.countP fun s => s.used && s.link = r.link
  /-- The counts of the links add up to the used rows. -/
  samples_sum : total (e.links.map (·.samples)) = e.usedSamples
  /-- No more rows are used than were fetched. -/
  used_le_total : e.usedSamples ≤ e.totalSamples
  /-- All rows of the query were fetched. -/
  fetched : e.totalSamples = rows.length
  /-- Every link ends in one of the four ways. -/
  statuses_sum : e.countStatus .valid + e.countStatus .fitFailure +
    e.countStatus .degenerateSlope + e.countStatus .outOfBounds = e.links.length
  /-- The missing links are those that are not valid. -/
  missing : e.missingCount = e.links.countP fun r => r.status ≠ .valid
  /-- The subtraction that counts the missing links does not run below zero. -/
  valid_le_links : e.validCount ≤ e.links.length
  /-- Look-up finds exactly the row of a link. -/
  lookup : ∀ link r, e.get? link = some r ↔ r ∈ e.links ∧ r.link = link

/-! ## §2. Counting rows -/

theorem length_eq_sum_statuses (links : List LinkRecord) :
    (links.filter (·.status == .valid)).length + (links.filter (·.status == .fitFailure)).length
      + (links.filter (·.status == .degenerateSlope)).length
      + (links.filter (·.status == .outOfBounds)).length = links.length := by
  induction links with
  | nil => rfl
  | cons r rest ih =>
    simp only [List.filter_cons, List.length_cons]
    cases hstatus : r.status with
    | valid => simp; omega
    | fitFailure => simp; omega
    | degenerateSlope => simp; omega
    | outOfBounds => simp; omega

/-- Rows that are not valid make up the rest. -/
theorem ExperimentEstimates.missingCount_eq (e : ExperimentEstimates) :
    e.missingCount = e.links.countP fun r => r.status ≠ .valid := by
  have hsplit := List.length_eq_countP_add_countP (·.isValid) (l := e.links)
  have hvalid : e.validCount = e.links.countP (·.isValid) :=
    List.countP_eq_length_filter.symm
  have hother : (e.links.countP fun r => r.status ≠ .valid)
      = e.links.countP fun r => ¬ r.isValid = true := by
    apply List.countP_congr
    intro r _
    simp [LinkRecord.isValid]
  unfold ExperimentEstimates.missingCount
  rw [hvalid, hother]
  omega

theorem ExperimentEstimates.validCount_le (e : ExperimentEstimates) :
    e.validCount ≤ e.links.length :=
  List.length_filter_le _ _

/-! ## §3. The result of an estimation -/

section

variable (e : Estimator Float) (name : String) (id : ExperimentId) (capacity : Float)
  (samples : List (Sample Float))

/-- The links of a result ascend, as those of the groups do. -/
theorem links_ascending :
    (e.estimates name id capacity samples).links.Pairwise (·.link < ·.link) :=
  List.pairwise_map.mpr (groupByLink samples).ascending

theorem total_samples_links :
    total ((e.estimates name id capacity samples).links.map (·.samples))
      = (e.estimates name id capacity samples).usedSamples := by
  show total (((groupByLink samples).entries.map _).map _)
    = total ((groupByLink samples).values.map _)
  unfold Table.values
  rw [List.map_map, List.map_map]
  rfl

/-- The used samples of a result are those of the candidates. -/
theorem usedSamples_estimates :
    (e.estimates name id capacity samples).usedSamples = (usedSamples samples).length :=
  Table.total_length_groupBy _ _

/-- A link has used samples exactly if one of the samples is. -/
theorem usedSamplesOf_ne_nil_iff {link : LinkId} {samples : List (Sample Float)} :
    usedSamplesOf link samples ≠ [] ↔ ∃ s ∈ samples, s.used = true ∧ s.link = link := by
  rw [usedSamplesOf_eq_filter, ne_eq, List.filter_eq_nil_iff]
  constructor
  · intro h
    apply Classical.byContradiction
    intro hnone
    apply h
    intro s hs hkept
    obtain ⟨hused, hlink⟩ := Bool.and_eq_true_iff.mp hkept
    exact hnone ⟨s, hs, hused, of_decide_eq_true hlink⟩
  · rintro ⟨s, hs, hused, rfl⟩ h
    exact h s hs (by simp [hused])

/-- The result of an estimation balances against its candidates. -/
theorem balances_estimates : (e.estimates name id capacity samples).Balances samples where
  ascending := links_ascending e name id capacity samples
  attempted := by
    intro link
    rw [← usedSamplesOf_ne_nil_iff]
    constructor
    · rintro ⟨r, hr, rfl⟩
      obtain ⟨link, hne, rfl⟩ := mem_links_iff.mp hr
      exact hne
    · intro hne
      exact ⟨_, mem_links_iff.mpr ⟨link, hne, rfl⟩, rfl⟩
  own_samples := by
    intro r hr
    obtain ⟨link, -, rfl⟩ := mem_links_iff.mp hr
    rw [samples_estimateLink, link_estimateLink, List.countP_eq_length_filter,
      usedSamplesOf_eq_filter]
  samples_sum := total_samples_links e name id capacity samples
  used_le_total := by
    rw [usedSamples_estimates]
    exact List.length_filter_le _ _
  fetched := rfl
  statuses_sum := length_eq_sum_statuses _
  missing := ExperimentEstimates.missingCount_eq _
  valid_le_links := ExperimentEstimates.validCount_le _
  lookup := fun _ _ =>
    ExperimentEstimates.get?_eq_some_iff (links_ascending e name id capacity samples)

end

/-- Every result balances against the rows that the query of its experiment returns. -/
theorem estimateExperiment_balances (store : Store) (config : Config) (e : Estimator Float)
    (name : String) (estimates : ExperimentEstimates)
    (h : estimateExperiment store config e name = .ok estimates) :
    ∃ profile rows, config.profile? name = some profile ∧
      store.resolve name = .ok estimates.id ∧
      store.candidates (config.selection.query estimates.id profile.physicalCapacity)
        = .ok rows ∧ estimates.Balances rows := by
  obtain ⟨profile, id, rows, hprofile, hid, hrows, rfl⟩ := estimateExperiment_eq_ok_iff.mp h
  exact ⟨profile, rows, hprofile, hid, hrows,
    balances_estimates e name id profile.physicalCapacity rows⟩

/-- The books of the four links, each of which has two samples. -/
theorem balances_fourLinks :
    ∃ estimates,
      estimateExperiment fourLinks fourLinksConfig fourLinksConfig.estimator.estimator "exp1"
        = .ok estimates ∧
      estimates.links.map (·.samples) = [2, 2, 2, 2] ∧
      ∃ profile rows, fourLinksConfig.profile? "exp1" = some profile ∧
        fourLinks.resolve "exp1" = .ok estimates.id ∧
        fourLinks.candidates
          (fourLinksConfig.selection.query estimates.id profile.physicalCapacity) = .ok rows ∧
        estimates.Balances rows := by
  have hview : (estimateExperiment fourLinks fourLinksConfig
      fourLinksConfig.estimator.estimator "exp1").toOption.map
        (fun estimates => estimates.links.map (·.samples)) = some [2, 2, 2, 2] := by
    decide +kernel
  obtain ⟨estimates, hok, hsamples⟩ := exists_ok_of_view hview
  exact ⟨estimates, hok, hsamples,
    estimateExperiment_balances fourLinks fourLinksConfig _ "exp1" estimates hok⟩

end ProbeGap
