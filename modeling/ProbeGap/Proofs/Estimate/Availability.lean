import ProbeGap.Proofs.Estimate.Experiment
import ProbeGap.Proofs.Fallible
import ProbeGap.Proofs.Text.ByteOrder

/-!
# When an estimation fails

Three tables are asked for an experiment, and each may have no answer. In a store of a
history the third always has one: the identifier that a name leads to is known, so the error
of an unknown identifier cannot reach a caller. What remains is a name without capacities
or one that is not stored, and both are reported as a name that was not found.

The estimation of all experiments walks the configured names in byte order up to the first
that is not stored (`Store.Serves`).
-/

namespace ProbeGap

/-! ## §1. What a store promises -/

/-- The estimations of a store fail for want of a name and for nothing else. -/
structure Store.Serves (s : Store) (config : Config) (e : Estimator Float) : Prop where
  /-- Exactly the names without capacities and the names that are not stored fail. -/
  experiment_fails : ∀ name, (∃ error, estimateExperiment s config e name = .error error) ↔
    config.profile? name = none ∨ s.experiments.contains name = false
  /-- The error is that the name was not found. -/
  experiment_error : ∀ name error, estimateExperiment s config e name = .error error →
    error = .notFound name
  /-- All configured experiments can be estimated exactly if all are stored. -/
  all_succeeds : (∃ results, estimateAll s config e = .ok results) ↔
    ∀ name ∈ config.experiments.keys, s.experiments.contains name = true
  /-- The results are those of the configured names in byte order, one by one. -/
  all_results : ∀ results, estimateAll s config e = .ok results →
    config.experiments.keys.map (estimateExperiment s config e) = results.map .ok
  /-- A failure names the first configured name that is not stored. -/
  all_error : ∀ error, estimateAll s config e = .error error →
    ∃ name ∈ config.experiments.keys, s.experiments.contains name = false ∧
      error = .notFound name ∧
      ∀ other ∈ config.experiments.keys, s.experiments.contains other = false →
        other = name ∨ nameBytes name < nameBytes other

/-- The configured names are listed in byte order, each of them once. -/
theorem Config.names_in_byte_order (config : Config) :
    config.experiments.keys.Pairwise (fun a b => nameBytes a < nameBytes b) := by
  apply List.Pairwise.imp _ config.experiments.keys_ascending
  intro a b hlt
  exact nameBytes_lt_iff.mpr hlt

/-! ## §2. One experiment -/

section

variable {s : Store} {config : Config} (e : Estimator Float) {name : String}

/-- A name without capacities, or one that is not stored, was not found. -/
theorem estimateExperiment_eq_notFound
    (h : config.profile? name = none ∨ s.experiments.contains name = false) :
    estimateExperiment s config e name = .error (.notFound name) := by
  rw [estimateExperiment_eq]
  cases hprofile : config.profile? name with
  | none => rfl
  | some profile =>
    rcases h with hnone | hmissing
    · rw [hprofile] at hnone
      cases hnone
    · rw [Table.contains_eq_false_iff.mp hmissing]

/-- Any other name is estimated, as the identifier it leads to is known. -/
theorem Store.IsConsistent.exists_estimates (h : s.IsConsistent)
    (hprofile : config.profile? name ≠ none) (hstored : s.experiments.contains name = true) :
    ∃ estimates, estimateExperiment s config e name = .ok estimates := by
  obtain ⟨profile, hprofile⟩ := Option.ne_none_iff_exists'.mp hprofile
  obtain ⟨id, hid⟩ := Table.contains_iff.mp hstored
  obtain ⟨bucket, hbucket⟩ := h.named_known name id (resolve_eq_ok_iff.mpr hid)
  rw [estimateExperiment_eq, hprofile, hid]
  simp only [hbucket]
  exact ⟨_, rfl⟩

end

/-! ## §3. All experiments -/

section

variable {s : Store} {config : Config} (e : Estimator Float)

theorem Config.profile?_ne_none {name : String} (h : name ∈ config.experiments.keys) :
    config.profile? name ≠ none :=
  Option.ne_none_iff_exists'.mpr (Table.mem_keys_iff.mp h)

theorem Store.IsConsistent.exists_results (h : s.IsConsistent)
    (hstored : ∀ name ∈ config.experiments.keys, s.experiments.contains name = true) :
    ∃ results, estimateAll s config e = .ok results := by
  unfold estimateAll
  apply exists_mapM_eq_ok
  intro name hname
  exact h.exists_estimates e (Config.profile?_ne_none hname) (hstored name hname)

/-- The first name that is not stored ends the walk, after those before it were estimated. -/
theorem Store.IsConsistent.estimateAll_eq_error (h : s.IsConsistent) {before after : List String}
    {name : String} (hkeys : config.experiments.keys = before ++ name :: after)
    (hbefore : ∀ other ∈ before, s.experiments.contains other = true)
    (hmissing : s.experiments.contains name = false) :
    estimateAll s config e = .error (.notFound name) := by
  have hresults : ∃ results, before.mapM (estimateExperiment s config e) = .ok results := by
    apply exists_mapM_eq_ok
    intro other hother
    have hkey : other ∈ config.experiments.keys := by
      rw [hkeys]
      exact List.mem_append_left _ hother
    exact h.exists_estimates e (Config.profile?_ne_none hkey) (hbefore other hother)
  obtain ⟨results, hresults⟩ := hresults
  unfold estimateAll
  rw [hkeys]
  exact mapM_append_eq_error (mapM_eq_ok_iff.mp hresults)
    (estimateExperiment_eq_notFound e (Or.inr hmissing))

/-- The name at which the walk ends is the first in byte order that is not stored. -/
theorem Config.first_missing {before after : List String} {name : String}
    (hkeys : config.experiments.keys = before ++ name :: after)
    (hbefore : ∀ other ∈ before, s.experiments.contains other = true) :
    ∀ other ∈ config.experiments.keys, s.experiments.contains other = false →
      other = name ∨ nameBytes name < nameBytes other := by
  intro other hother hmissing
  have horder := config.names_in_byte_order
  rw [hkeys] at hother horder
  rcases List.mem_append.mp hother with hmem | hmem
  · have hcontains := hbefore other hmem
    rw [hmissing] at hcontains
    cases hcontains
  · rcases List.mem_cons.mp hmem with heq | hafter
    · exact Or.inl heq
    · have htail := (List.pairwise_append.mp horder).2.1
      exact Or.inr ((List.pairwise_cons.mp htail).1 other hafter)

/-- Either all configured names are stored, or there is a first that is not. -/
theorem Store.all_stored_or_first_missing (s : Store) (config : Config) :
    (∀ name ∈ config.experiments.keys, s.experiments.contains name = true) ∨
      ∃ before name after, config.experiments.keys = before ++ name :: after ∧
        (∀ other ∈ before, s.experiments.contains other = true) ∧
        s.experiments.contains name = false := by
  cases hfind : config.experiments.keys.find? (fun name => !s.experiments.contains name) with
  | none =>
    left
    intro name hname
    simpa using List.find?_eq_none.mp hfind name hname
  | some name =>
    right
    obtain ⟨hmissing, before, after, hkeys, hbefore⟩ := List.find?_eq_some_iff_append.mp hfind
    exact ⟨before, name, after, hkeys, by simpa using hbefore, by simpa using hmissing⟩

/-- A consistent store keeps the promise under every configuration. -/
theorem Store.IsConsistent.serves (h : s.IsConsistent) : s.Serves config e where
  experiment_fails := by
    intro name
    constructor
    · rintro ⟨error, herror⟩
      apply Classical.byContradiction
      intro hnot
      obtain ⟨hprofile, hstored⟩ := not_or.mp hnot
      obtain ⟨estimates, hok⟩ := h.exists_estimates e hprofile (Bool.of_not_eq_false hstored)
      rw [hok] at herror
      cases herror
    · intro hmissing
      exact ⟨_, estimateExperiment_eq_notFound e hmissing⟩
  experiment_error := by
    intro name error herror
    by_cases hmissing : config.profile? name = none ∨ s.experiments.contains name = false
    · rw [estimateExperiment_eq_notFound e hmissing] at herror
      exact (Except.error.inj herror).symm
    · obtain ⟨hprofile, hstored⟩ := not_or.mp hmissing
      obtain ⟨estimates, hok⟩ := h.exists_estimates e hprofile (Bool.of_not_eq_false hstored)
      rw [hok] at herror
      cases herror
  all_succeeds := by
    constructor
    · rintro ⟨results, hok⟩
      rcases s.all_stored_or_first_missing config with hall | hfirst
      · exact hall
      · obtain ⟨before, name, after, hkeys, hbefore, hmissing⟩ := hfirst
        rw [h.estimateAll_eq_error e hkeys hbefore hmissing] at hok
        cases hok
    · exact fun hall => h.exists_results e hall
  all_results := fun results hok => mapM_eq_ok_iff.mp hok
  all_error := by
    intro error herror
    rcases s.all_stored_or_first_missing config with hall | hfirst
    · obtain ⟨results, hok⟩ := h.exists_results e hall
      rw [hok] at herror
      cases herror
    · obtain ⟨before, name, after, hkeys, hbefore, hmissing⟩ := hfirst
      rw [h.estimateAll_eq_error e hkeys hbefore hmissing] at herror
      have hname : name ∈ config.experiments.keys := by
        rw [hkeys]
        exact List.mem_append_right _ List.mem_cons_self
      exact ⟨name, hname, hmissing, (Except.error.inj herror).symm,
        Config.first_missing hkeys hbefore⟩

end

/-- Every store of a history holds what the history added, and serves every configuration
by every estimator. -/
theorem after_holds_and_serves (history : List StoreStep) :
    (Store.after history).Holds (logOf history) ∧
      ∀ (config : Config) (e : Estimator Float),
        config.experiments.keys.Pairwise (fun a b => nameBytes a < nameBytes b) ∧
          (Store.after history).Serves config e := by
  refine ⟨holds_after history, fun config e => ⟨config.names_in_byte_order, ?_⟩⟩
  exact (holds_after history).toIsConsistent.serves e

end ProbeGap
