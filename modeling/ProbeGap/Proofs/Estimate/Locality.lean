import ProbeGap.Proofs.Estimate.Experiment
import ProbeGap.Proofs.Fallible
import ProbeGap.Proofs.Store.Marking

/-!
# Links do not interfere

The row of a link is made from what the store holds of that link within the window of the
query. Two stores that agree on those samples give the same row for the link, whatever else
they hold and in whatever order it was added, and whether flags are stored or decided anew.

The proof follows a link through the estimation: restricting the samples to the link commutes
with the window, with marking and with the choice of the used samples, and the group of the
link is all that its row is made from (`recordOf_estimateExperiment`). Within a group, samples
without a point do not count but in the number of samples.
-/

namespace ProbeGap

/-! ## §1. The samples of a link -/

/-- The samples of a link in an experiment that lie within a window. -/
def Store.linkRows (s : Store) (id : ExperimentId) (window : Option TimeWindow)
    (link : LinkId) : List (Sample Float) :=
  ((s.samplesOf id).filter (Store.isWithin window)).filter (·.link = link)

/-- The candidates of a link, from the samples of that link alone. -/
def Store.linkCandidates (s : Store) (q : CandidateQuery Float) (link : LinkId) :
    List (Sample Float) :=
  if s.recompute then markCandidates q (s.linkRows q.experiment q.window link)
  else s.linkRows q.experiment q.window link

/-- Two stores agree on a link: both let the name lead to the experiment, both decide flags
in the same way, and both hold the same samples of the link within the window. -/
structure AgreeOn (name : String) (id : ExperimentId) (window : Option TimeWindow)
    (link : LinkId) (s₁ s₂ : Store) : Prop where
  resolve_left : s₁.resolve name = .ok id
  resolve_right : s₂.resolve name = .ok id
  recompute : s₁.recompute = s₂.recompute
  rows : s₁.linkRows id window link = s₂.linkRows id window link

variable {s : Store}

/-- The candidates of an experiment that are of a link are the candidates of the link. -/
theorem filter_select (q : CandidateQuery Float) (link : LinkId) {bucket : Array (Sample Float)}
    (hbucket : s.samples.get? q.experiment = some bucket) :
    (s.select q bucket.toList).filter (·.link = link) = s.linkCandidates q link := by
  have hrows : (bucket.toList.filter (Store.isWithin q.window)).filter (·.link = link)
      = s.linkRows q.experiment q.window link := by
    unfold Store.linkRows Store.samplesOf
    rw [hbucket]
    rfl
  unfold Store.select Store.linkCandidates
  by_cases hrecompute : s.recompute = true
  · rw [if_pos hrecompute, if_pos hrecompute, filter_markCandidates, hrows]
  · rw [if_neg hrecompute, if_neg hrecompute, hrows]

theorem linkCandidates_eq_nil (q : CandidateQuery Float) (link : LinkId)
    (hnone : s.samples.get? q.experiment = none) : s.linkCandidates q link = [] := by
  have hrows : s.linkRows q.experiment q.window link = [] := by
    unfold Store.linkRows Store.samplesOf
    rw [hnone]
    rfl
  unfold Store.linkCandidates
  rw [hrows]
  exact ite_self _

/-! ## §2. The row of a link -/

/-- The row that a result has for a link. A failed estimation has no rows. -/
def recordOf (result : Except EstimationError ExperimentEstimates) (link : LinkId) :
    Option LinkRecord :=
  match result with
  | .ok estimates => estimates.links.find? (·.link = link)
  | .error _ => none

/-- The row that an estimator makes for a link from the candidates of the link. -/
def Estimator.recordOfLink (e : Estimator Float) (link : LinkId) (id : ExperimentId)
    (capacity : Float) (candidates : List (Sample Float)) : Option LinkRecord :=
  if usedSamples candidates = [] then none
  else some (e.estimateLink link id (usedSamples candidates) capacity)

/-- To choose the used samples and then those of a link comes to the same as the reverse. -/
theorem usedSamplesOf_eq (link : LinkId) (samples : List (Sample Float)) :
    usedSamplesOf link samples = usedSamples (samples.filter (·.link = link)) := by
  rw [usedSamplesOf_eq_filter]
  unfold usedSamples
  rw [List.filter_filter]

section

variable (e : Estimator Float) (name : String) (id : ExperimentId) (capacity : Float)

/-- The row of a link among the rows of a result. -/
theorem find?_links (samples : List (Sample Float)) (link : LinkId) :
    (e.estimates name id capacity samples).links.find? (·.link = link) =
      e.recordOfLink link id capacity (samples.filter (·.link = link)) := by
  unfold Estimator.recordOfLink
  rw [← usedSamplesOf_eq]
  cases hfind : (e.estimates name id capacity samples).links.find? (·.link = link) with
  | none =>
    have hempty : usedSamplesOf link samples = [] := by
      apply Classical.byContradiction
      intro hne
      have hrow : e.estimateLink link id (usedSamplesOf link samples) capacity ∈
          (e.estimates name id capacity samples).links := mem_links_iff.mpr ⟨link, hne, rfl⟩
      exact List.find?_eq_none.mp hfind _ hrow (decide_eq_true rfl)
    rw [if_pos hempty]
  | some r =>
    have hlink : r.link = link := by simpa using List.find?_some hfind
    obtain ⟨link', hne, rfl⟩ := mem_links_iff.mp (List.mem_of_find?_eq_some hfind)
    rw [link_estimateLink] at hlink
    subst hlink
    rw [if_neg hne]

end

/-- The row of a link is a function of the candidates of the link. -/
theorem recordOf_estimateExperiment {config : Config} {name : String} {id : ExperimentId}
    {profile : Profile} (e : Estimator Float) (hprofile : config.profile? name = some profile)
    (hresolve : s.resolve name = .ok id) (link : LinkId) :
    recordOf (estimateExperiment s config e name) link =
      e.recordOfLink link id profile.physicalCapacity
        (s.linkCandidates (config.selection.query id profile.physicalCapacity) link) := by
  rw [estimateExperiment_eq, hprofile, resolve_eq_ok_iff.mp hresolve]
  -- An identifier that is not known makes the estimation fail, and gives no candidates.
  cases hbucket : s.samples.get? id with
  | none =>
    have hnone := linkCandidates_eq_nil
      (config.selection.query id profile.physicalCapacity) link hbucket
    rw [hnone]
    simp only [hbucket]
    rfl
  | some bucket =>
    have hselect := filter_select
      (config.selection.query id profile.physicalCapacity) link hbucket
    simp only [hbucket]
    rw [← hselect]
    exact find?_links e name id profile.physicalCapacity _ link

/-! ## §3. Two stores -/

section

variable {config : Config} {name : String} {id : ExperimentId} {link : LinkId} {s₁ s₂ : Store}

theorem AgreeOn.linkCandidates {capacity : Float}
    (h : AgreeOn name id config.selection.window link s₁ s₂) :
    s₁.linkCandidates (config.selection.query id capacity) link =
      s₂.linkCandidates (config.selection.query id capacity) link := by
  unfold Store.linkCandidates
  show (if s₁.recompute then markCandidates _ (s₁.linkRows id config.selection.window link)
      else s₁.linkRows id config.selection.window link) = _
  rw [h.recompute, h.rows]
  rfl

/-- Stores that agree on a link give the same row for it. -/
theorem AgreeOn.recordOf (h : AgreeOn name id config.selection.window link s₁ s₂)
    (e : Estimator Float) :
    recordOf (estimateExperiment s₁ config e name) link =
      recordOf (estimateExperiment s₂ config e name) link := by
  cases hprofile : config.profile? name with
  | none =>
    rw [estimateExperiment_eq, estimateExperiment_eq, hprofile]
  | some profile =>
    rw [recordOf_estimateExperiment e hprofile h.resolve_left,
      recordOf_estimateExperiment e hprofile h.resolve_right, h.linkCandidates]

/-- Stores that agree on a link fail alike, if what they resolve is known to them. -/
theorem AgreeOn.error_iff (h : AgreeOn name id config.selection.window link s₁ s₂)
    (hleft : s₁.IsConsistent) (hright : s₂.IsConsistent) (e : Estimator Float)
    (error : EstimationError) :
    estimateExperiment s₁ config e name = .error error ↔
      estimateExperiment s₂ config e name = .error error := by
  obtain ⟨bucket₁, hbucket₁⟩ := hleft.named_known name id h.resolve_left
  obtain ⟨bucket₂, hbucket₂⟩ := hright.named_known name id h.resolve_right
  rw [estimateExperiment_eq, estimateExperiment_eq, resolve_eq_ok_iff.mp h.resolve_left,
    resolve_eq_ok_iff.mp h.resolve_right]
  cases config.profile? name with
  | none => exact Iff.rfl
  | some profile =>
    simp only [hbucket₁, hbucket₂]
    constructor
    · intro hok
      cases hok
    · intro hok
      cases hok

end

/-! ## §4. Samples without a point -/

/-- The samples that have a point. -/
def withPoints (group : List (Sample Float)) : List (Sample Float) :=
  group.filter (·.features?.isSome)

theorem filterMap_withPoints (group : List (Sample Float)) :
    (withPoints group).filterMap Sample.features? = group.filterMap Sample.features? := by
  unfold withPoints
  rw [List.filterMap_filter]
  congr 1
  funext x
  cases hpoint : x.features? with
  | none => rfl
  | some p => rfl

/-- The outcome of a group is that of its samples with points. -/
theorem outcome_eq_of_withPoints_eq (e : Estimator Float) {group₁ group₂ : List (Sample Float)}
    (h : withPoints group₁ = withPoints group₂) (capacity : Float) :
    e.outcome group₁ capacity = e.outcome group₂ capacity := by
  unfold Estimator.outcome
  rw [← filterMap_withPoints group₁, ← filterMap_withPoints group₂, h]

/-- The row of a link depends on the samples of that link within the window, and of a group
only the samples with points count but in their number. -/
theorem links_do_not_interfere :
    (∀ (s₁ s₂ : Store) (config : Config) (e : Estimator Float) (name : String)
        (id : ExperimentId) (link : LinkId),
      AgreeOn name id config.selection.window link s₁ s₂ →
        recordOf (estimateExperiment s₁ config e name) link =
            recordOf (estimateExperiment s₂ config e name) link ∧
          (s₁.IsConsistent → s₂.IsConsistent → ∀ error,
            estimateExperiment s₁ config e name = .error error ↔
              estimateExperiment s₂ config e name = .error error)) ∧
    (∀ (e : Estimator Float) (link : LinkId) (id : ExperimentId) (capacity : Float)
        (group₁ group₂ : List (Sample Float)),
      withPoints group₁ = withPoints group₂ →
        e.estimateLink link id group₁ capacity =
          { e.estimateLink link id group₂ capacity with samples := group₁.length }) := by
  constructor
  · intro s₁ s₂ config e name id link h
    refine ⟨h.recordOf e, ?_⟩
    intro hleft hright error
    exact h.error_iff hleft hright e error
  · intro e link id capacity group₁ group₂ h
    unfold Estimator.estimateLink
    rw [outcome_eq_of_withPoints_eq e h]
    rfl

/-- The first instant of the window of `windowConfig`. -/
def windowStart : Instant := .ofSeconds 0 (by decide)

/-- The instant at which the window of `windowConfig` ends. -/
def windowStop : Instant := .ofSeconds 100 (by decide)

/-- The configuration of the four links, for short packets and with a window. -/
def windowConfig : Config :=
  { fourLinksConfig with
    selection := { packetSize := 1, window := some ⟨windowStart, windowStop⟩ } }

/-- A store with two samples of link 7, from the start of the window. -/
def quietStore : Store :=
  (Store.ofDump ⟨[⟨1, "exp1"⟩],
    [{ sampleAt 7 1.5 1.25 with timestamp := some windowStart },
     { sampleAt 7 2 1.75 with timestamp := some windowStart }]⟩).withRecompute true

/-- The same samples among others: of link 3 with long output gaps, of link 7 in another
experiment, and of link 7 without a time or at the end of the window. -/
def busyStore : Store :=
  (Store.ofDump ⟨[⟨2, "other"⟩, ⟨1, "exp1"⟩],
    [{ sampleAt 3 1 400 with timestamp := some windowStart },
     sampleAt 7 1 9,
     { sampleAt 7 1.5 1.25 with timestamp := some windowStart },
     { sampleAt 7 2 8 with experiment := 2, timestamp := some windowStart },
     { sampleAt 3 2 900 with timestamp := some windowStart },
     { sampleAt 7 2 1.75 with timestamp := some windowStart },
     { sampleAt 7 2 7 with timestamp := some windowStop }]⟩).withRecompute true

/-- The other samples of the busy store do not reach the valid row of link 7, and neither
does a sample that was sent without a gap. -/
theorem links_do_not_interfere_in_busyStore :
    AgreeOn "exp1" 1 windowConfig.selection.window 7 quietStore busyStore ∧
      recordOf
          (estimateExperiment quietStore windowConfig windowConfig.estimator.estimator "exp1") 7 =
        recordOf
          (estimateExperiment busyStore windowConfig windowConfig.estimator.estimator "exp1") 7 ∧
      (recordOf (estimateExperiment quietStore windowConfig windowConfig.estimator.estimator
        "exp1") 7).map (·.status) = some .valid ∧
      windowConfig.estimator.estimator.estimateLink 7 1
          [sampleAt 7 1.5 1.25, { sampleAt 7 1 1 with gin := 0 }, sampleAt 7 2 1.75] 3 =
        { windowConfig.estimator.estimator.estimateLink 7 1
            [sampleAt 7 1.5 1.25, sampleAt 7 2 1.75] 3 with samples := 3 } := by
  have hagree : AgreeOn "exp1" 1 windowConfig.selection.window 7 quietStore busyStore :=
    ⟨by rfl, by rfl, rfl, by decide +kernel⟩
  refine ⟨hagree, ?_, by decide +kernel, ?_⟩
  · exact (links_do_not_interfere.1 quietStore busyStore windowConfig _ "exp1" 1 7 hagree).1
  · exact links_do_not_interfere.2 _ 7 1 3 _ _ (by decide +kernel)

end ProbeGap
