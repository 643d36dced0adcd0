import ProbeGap.Estimate.Experiment
import ProbeGap.Proofs.Estimate.Groups
import ProbeGap.Proofs.Store.History

/-!
# What the estimation of an experiment consists of

The estimation of an experiment asks three tables in turn: the capacities for the name, the
names for the identifier, and the samples for the identifier. `estimateExperiment_eq` is
the whole case distinction. If nothing is missing, the rows are those of the links that have
a used candidate, each made from the used candidates of that link alone.
-/

namespace ProbeGap

/-! ## §1. The three look-ups -/

/-- The candidates among the rows of an experiment. -/
def Store.select (s : Store) (q : CandidateQuery Float) (rows : List (Sample Float)) :
    List (Sample Float) :=
  if s.recompute then markCandidates q (rows.filter (Store.isWithin q.window))
  else rows.filter (Store.isWithin q.window)

theorem candidates_eq (s : Store) (q : CandidateQuery Float) :
    s.candidates q = match s.samples.get? q.experiment with
      | none => .error (.unknownId q.experiment)
      | some rows => .ok (s.select q rows.toList) := rfl

theorem candidates_of_unknown {s : Store} {q : CandidateQuery Float}
    (hunknown : s.samples.get? q.experiment = none) :
    s.candidates q = .error (.unknownId q.experiment) := by
  rw [candidates_eq, hunknown]

theorem candidates_of_known {s : Store} {q : CandidateQuery Float}
    (hknown : s.samples.get? q.experiment ≠ none) :
    s.candidates q = .ok (s.select q (s.samplesOf q.experiment)) := by
  obtain ⟨bucket, hbucket⟩ := Option.ne_none_iff_exists'.mp hknown
  unfold Store.samplesOf
  rw [candidates_eq, hbucket]
  rfl

/-- A store that takes flags as they are gives the rows within the window. -/
theorem Store.select_of_stored {s : Store} (hstored : s.recompute = false)
    (q : CandidateQuery Float) (rows : List (Sample Float)) :
    s.select q rows = rows.filter (Store.isWithin q.window) := by
  unfold Store.select
  rw [hstored]
  rfl

theorem candidates_withRecompute_false {s : Store} {q : CandidateQuery Float}
    (hknown : s.samples.get? q.experiment ≠ none) :
    (s.withRecompute false).candidates q =
      .ok ((s.samplesOf q.experiment).filter (Store.isWithin q.window)) :=
  candidates_of_known (s := s.withRecompute false) hknown

/-- Told to decide the flags, a store decides them for the rows within the window. -/
theorem candidates_withRecompute_true {s : Store} {q : CandidateQuery Float}
    (hknown : s.samples.get? q.experiment ≠ none) :
    (s.withRecompute true).candidates q =
      .ok (markCandidates q ((s.samplesOf q.experiment).filter (Store.isWithin q.window))) :=
  candidates_of_known (s := s.withRecompute true) hknown

section

variable (store : Store) (config : Config) (e : Estimator Float) (name : String)

/-- The estimation of an experiment, by what is found in the three tables. -/
theorem estimateExperiment_eq :
    estimateExperiment store config e name =
      match config.profile? name with
      | none => .error (.notFound name)
      | some profile =>
        match store.experiments.get? name with
        | none => .error (.notFound name)
        | some id =>
          match store.samples.get? id with
          | none => .error (.store (.unknownId id))
          | some rows =>
            .ok (e.estimates name id profile.physicalCapacity
              (store.select (config.selection.query id profile.physicalCapacity)
                rows.toList)) := by
  unfold estimateExperiment Store.resolve
  cases config.profile? name with
  | none => rfl
  | some profile =>
    cases store.experiments.get? name with
    | none => rfl
    | some id =>
      show ((store.candidates (config.selection.query id profile.physicalCapacity)).mapError
        EstimationError.ofStoreError >>= fun candidates =>
          .ok (e.estimates name id profile.physicalCapacity candidates)) = _
      rw [candidates_eq]
      simp only [SelectionSettings.query]
      cases store.samples.get? id with
      | none => rfl
      | some rows => rfl

end

/-- A successful estimation, by what was found. -/
theorem estimateExperiment_eq_ok_iff {store : Store} {config : Config} {e : Estimator Float}
    {name : String} {estimates : ExperimentEstimates} :
    estimateExperiment store config e name = .ok estimates ↔
      ∃ profile id rows, config.profile? name = some profile ∧
        store.resolve name = .ok id ∧
        store.candidates (config.selection.query id profile.physicalCapacity) = .ok rows ∧
        estimates = e.estimates name id profile.physicalCapacity rows := by
  simp only [estimateExperiment_eq, resolve_eq_ok_iff, candidates_eq,
    SelectionSettings.query]
  constructor
  · intro h
    cases hprofile : config.profile? name with
    | none =>
      rw [hprofile] at h
      cases h
    | some profile =>
      cases hid : store.experiments.get? name with
      | none =>
        rw [hprofile, hid] at h
        cases h
      | some id =>
        cases hrows : store.samples.get? id with
        | none =>
          rw [hprofile, hid] at h
          simp only [hrows] at h
          cases h
        | some rows =>
          rw [hprofile, hid] at h
          simp only [hrows] at h
          cases h
          exact ⟨profile, id, _, rfl, rfl, by simp only [hrows], rfl⟩
  · rintro ⟨profile, id, rows, hprofile, hid, hcandidates, rfl⟩
    rw [hprofile, hid]
    cases hrows : store.samples.get? id with
    | none =>
      simp only [hrows] at hcandidates
      cases hcandidates
    | some found =>
      simp only [hrows] at hcandidates ⊢
      cases hcandidates
      rfl

/-- Stores that let a name lead to the same identifier and have the same candidates for it give
the same estimates. -/
theorem estimateExperiment_congr {s t : Store} {config : Config} {name : String}
    (hresolve : s.resolve name = t.resolve name)
    (hcandidates : ∀ (id : ExperimentId) (profile : Profile), s.resolve name = .ok id →
      config.profile? name = some profile →
      s.candidates (config.selection.query id profile.physicalCapacity) =
        t.candidates (config.selection.query id profile.physicalCapacity))
    (e : Estimator Float) :
    estimateExperiment s config e name = estimateExperiment t config e name := by
  unfold estimateExperiment
  rw [← hresolve]
  cases hprofile : config.profile? name with
  | none => rfl
  | some profile =>
    cases hid : s.resolve name with
    | error error => rfl
    | ok id =>
      show ((s.candidates (config.selection.query id profile.physicalCapacity)).mapError
        EstimationError.ofStoreError >>= _) = _
      rw [hcandidates id profile hid hprofile]
      rfl

/-! ## §2. The rows of the result -/

/-- The used samples of a link. -/
def usedSamplesOf (link : LinkId) (samples : List (Sample Float)) : List (Sample Float) :=
  (usedSamples samples).filter (·.link = link)

theorem usedSamplesOf_eq_filter (link : LinkId) (samples : List (Sample Float)) :
    usedSamplesOf link samples = samples.filter (fun s => s.used && s.link = link) :=
  filter_usedSamples

/-- A link has a group if any of its samples is used, and the group holds those. -/
theorem get?_groupByLink_eq_some_iff {samples group : List (Sample Float)} {link : LinkId} :
    (groupByLink samples).get? link = some group ↔
      group ≠ [] ∧ group = usedSamplesOf link samples :=
  Table.get?_groupBy_eq_some_iff

section

variable {e : Estimator Float} {name : String} {id : ExperimentId} {capacity : Float}
  {samples : List (Sample Float)}

/-- The rows are those of the links that have used samples. -/
theorem mem_links_iff {r : LinkRecord} :
    r ∈ (e.estimates name id capacity samples).links ↔
      ∃ link, usedSamplesOf link samples ≠ [] ∧
        r = e.estimateLink link id (usedSamplesOf link samples) capacity := by
  show r ∈ (groupByLink samples).entries.map _ ↔ _
  rw [List.mem_map]
  constructor
  · rintro ⟨⟨link, group⟩, hmem, rfl⟩
    obtain ⟨hne, rfl⟩ := get?_groupByLink_eq_some_iff.mp (Table.get?_eq_some_iff.mpr hmem)
    exact ⟨link, hne, rfl⟩
  · rintro ⟨link, hne, rfl⟩
    have hgroup := get?_groupByLink_eq_some_iff.mpr ⟨hne, rfl⟩
    exact ⟨(link, usedSamplesOf link samples), Table.get?_eq_some_iff.mp hgroup, rfl⟩

@[simp] theorem link_estimateLink (link : LinkId) (group : List (Sample Float)) :
    (e.estimateLink link id group capacity).link = link := rfl

@[simp] theorem samples_estimateLink (link : LinkId) (group : List (Sample Float)) :
    (e.estimateLink link id group capacity).samples = group.length := rfl

end

/-! ## §3. A small store -/

/-- A used sample of experiment 1 whose point is `(x, y)`, as its input gap is one. -/
def sampleAt (link : LinkId) (x y : Float) : Sample Float where
  link := link
  experiment := 1
  gin := 1
  gout := y
  length := x
  used := true

/-- Four links whose samples come in turn: a rising line, a flat one, a single `x`, and a
line that rises too slowly for the capacity. -/
def fourLinks : Store :=
  .ofDump ⟨[⟨1, "exp1"⟩],
    [sampleAt 4 1 0.25, sampleAt 1 1 0.5, sampleAt 2 1 1, sampleAt 3 2 1,
     sampleAt 1 2 1, sampleAt 4 2 0.5, sampleAt 2 2 1, sampleAt 3 2 3]⟩

/-- One experiment with a physical capacity of three bytes per second. -/
def fourLinksConfig : Config where
  experiments := .ofList [("exp1", ⟨16, 24⟩)]

end ProbeGap
