import ProbeGap.Command.Plan
import ProbeGap.Proofs.Config.Validation
import ProbeGap.Proofs.Estimate.Availability
import ProbeGap.Proofs.Files.Tree

/-!
# Which experiments a run estimates

There are two ways to take all experiments. A run of the estimate command starts from the store:
it takes the stored names in order and passes over those without capacities. `estimateAll`
starts from the configuration, takes the configured names in order, and fails at the first that
is not stored. Both orders are the order of bytes, so the first way takes the configured names
without those that are not stored (`sharedExperiments_eq`), and the two ways agree if nothing
is passed over.

A run that estimates a single name has nothing to pass over. It fails if the name is missing in
either table, and then nothing is written, as reports come after all estimations. After a run
that succeeds both reports are in the directory that was named for them, and no other file has
changed.

## Contents

  * `estimateRun`: the run of the command, once its configuration and store are at hand.
  * `FileTree.AcceptsReports`: when the reports of a run can be written.
  * `RunResult.Reports`: what a run with a report leaves behind.
  * `RunResult.FailsUnwritten`: failures that leave the files alone.
  * `SelectsShared`, `estimate_command_selects_shared`: what every run does.
-/

namespace ProbeGap

/-! ## §1. Runs -/

/-- The report of a run at a time. -/
def runReport (path : String) (config : Config) (time : String)
    (experiments : List ExperimentEstimates) : Report where
  time := time
  store := path
  method := config.estimator.method
  workers := config.estimator.workers
  experiments := experiments

/-- The run of the estimate command with a store and a configuration: it makes its plan and
carries it out. -/
def estimateRun (path : String) (store : Store) (config : Config) (named : Option String)
    (directory time : String) (t : FileTree) : RunResult :=
  match estimatePlan path store config named directory time with
  | .ok plan => plan.perform t
  | .error error => .failed t error

section

variable {path : String} {store : Store} {config : Config} {named : Option String}

/-- A run whose estimations succeed writes the report of them. -/
theorem estimateRun_of_ok {results : List ExperimentEstimates}
    (h : estimateAttempted path store config named = .ok results) (directory time : String)
    (t : FileTree) :
    estimateRun path store config named directory time t
      = ((runReport path config time results).plan directory).perform t := by
  unfold estimateRun estimatePlan
  rw [h]
  rfl

/-- A run with an estimation that fails does nothing else. -/
theorem estimateRun_of_error {error : RunError}
    (h : estimateAttempted path store config named = .error error) (directory time : String)
    (t : FileTree) :
    estimateRun path store config named directory time t = .failed t error := by
  unfold estimateRun estimatePlan
  rw [h]
  rfl

end

/-- A command line that asks for estimates is such a run. -/
theorem runCommandLine_estimate [Codec] {arguments : List String} {i : Invocation}
    {named : Option String} {method : Option FitMethod} {directory time : String}
    {t : FileTree} {base config : Config} {opened : Store}
    (harguments : Request.ofArguments arguments = .run i)
    (hcommand : i.command = .estimate named method directory)
    (hbase : loadConfigOr i.config t.content = .ok base)
    (hconfig : base.override i.overrides = .ok config)
    (hopen : openStore i.store (t.content i.store) = .ok opened) :
    runCommandLine arguments t time
      = estimateRun i.store (opened.withRecompute config.selection.recompute) config named
          directory time t := by
  unfold runCommandLine
  rw [harguments]
  have hplan : i.plan t.content time
      = estimatePlan i.store (opened.withRecompute config.selection.recompute) config named
          directory time := by
    unfold Invocation.plan Invocation.store?
    rw [hbase, hopen, hcommand]
    show ((base.override i.overrides).mapError _ >>= _) = _
    rw [hconfig]
    rfl
  simp only [hplan]
  rfl

/-! ## §2. Writing reports -/

/-- Whether the reports of a run can be written into a directory, made for them if it is
missing. -/
def FileTree.AcceptsReports (t : FileTree) (directory : String) : Prop :=
  ∃ made ∈ t.createDirectories? directory,
    made.canWrite (childPath directory "estimates.json") = true ∧
      made.canWrite (childPath directory "report.txt") = true

instance (t : FileTree) (directory : String) : Decidable (t.AcceptsReports directory) :=
  inferInstanceAs (Decidable (∃ made ∈ t.createDirectories? directory, _ ∧ _))

/-- What a run leaves behind that has carried out the plan of a report. -/
structure RunResult.Reports (r : RunResult) (report : Report) (directory : String)
    (t : FileTree) : Prop where
  succeeded : r.exitCode = 0
  unharmed : r.error = none
  shown : r.output = report.summary
  json : r.tree.content (childPath directory "estimates.json") = .file report.jsonText.toUTF8
  text : r.tree.content (childPath directory "report.txt") = .file report.text.toUTF8
  /-- Every other file is as it was before. -/
  kept : ∀ path bytes, t.content path = .file bytes →
    r.tree.locate? path ≠ r.tree.locate? (childPath directory "estimates.json") →
    r.tree.locate? path ≠ r.tree.locate? (childPath directory "report.txt") →
    r.tree.content path = .file bytes

theorem isName_json : IsName "estimates.json" :=
  ⟨by decide, by decide, by decide, by decide⟩

theorem isName_text : IsName "report.txt" :=
  ⟨by decide, by decide, by decide, by decide⟩

/-- Where reports are accepted, the plan of a report is carried out in full. -/
theorem perform_report {t : FileTree} {directory : String} (h : t.AcceptsReports directory)
    (r : Report) : ((r.plan directory).perform t).Reports r directory t := by
  obtain ⟨made, hmade, hjson, htext⟩ := h
  obtain ⟨first, hfirst, hputsJson⟩ := FileTree.exists_write? hjson r.jsonText.toUTF8
  rw [← FileTree.canWrite_congr hputsJson.directories] at htext
  obtain ⟨second, hsecond, hputsText⟩ := FileTree.exists_write? htext r.text.toUTF8
  have hperform : (r.plan directory).perform t = ⟨0, r.summary, none, second⟩ := by
    simp only [Plan.perform, Report.plan, performSteps, PlanStep.perform?,
      Option.mem_def.mp hmade, hfirst, hsecond]
  -- All three trees have the same directories, so paths lead to the same places in them.
  have hsame : ∀ path, second.locate? path = first.locate? path :=
    FileTree.locate?_congr hputsText.directories
  have hsameMade : ∀ path, first.locate? path = made.locate? path :=
    FileTree.locate?_congr hputsJson.directories
  rw [hperform]
  refine ⟨rfl, rfl, rfl, ?_, hputsText.content_self, ?_⟩
  · apply hputsText.content_other _ hputsJson.content_self
    obtain ⟨place, hplace, -⟩ := hputsJson.files
    apply FileTree.locate?_siblings isName_json isName_text (by decide)
    rw [hsameMade, hplace]
    rfl
  · intro path bytes hfile hnotJson hnotText
    have hmadeFile : made.content path = .file bytes :=
      FileTree.content_of_extends (FileTree.extends_of_create? hmade) hfile
    simp only [hsame, hsameMade] at hnotJson hnotText
    have hfirstFile := hputsJson.content_other hnotJson hmadeFile
    apply hputsText.content_other _ hfirstFile
    rw [hsameMade, hsameMade]
    exact hnotText

/-- Reports are accepted by the empty tree, but not in the place of a file. -/
example : FileTree.AcceptsReports {} "out/today" ∧
    ¬ FileTree.AcceptsReports (.ofList [("out", ByteArray.empty)]) "out/today" := by
  decide +kernel

/-- A run that failed before anything was written. -/
structure RunResult.FailsUnwritten (r : RunResult) (t : FileTree) : Prop where
  failed : r.exitCode = 1
  told : r.error.isSome = true
  unwritten : r.tree = t

theorem failsUnwritten_failed {error : RunError} (h : error.isBreakdown = false) (t : FileTree) :
    (RunResult.failed t error).FailsUnwritten t := by
  unfold RunResult.failed
  rw [h]
  exact ⟨rfl, rfl, rfl⟩

theorem not_failsUnwritten_report {t : FileTree} {directory : String}
    (h : t.AcceptsReports directory) (r : Report) :
    ¬ ((r.plan directory).perform t).FailsUnwritten t := by
  intro hfails
  have hcode := hfails.failed
  rw [(perform_report h r).succeeded] at hcode
  exact absurd hcode Nat.zero_ne_one

/-! ## §3. The names that are attempted -/

section

variable {store : Store} {config : Config} {path name : String}

theorem mem_sharedExperiments :
    name ∈ sharedExperiments store config ↔
      store.experiments.contains name = true ∧ config.experiments.contains name = true := by
  unfold sharedExperiments
  rw [List.mem_filter, Table.mem_keys_iff, ← Table.contains_iff]

theorem sharedExperiments_in_byte_order (store : Store) (config : Config) :
    (sharedExperiments store config).Pairwise (fun a b => nameBytes a < nameBytes b) := by
  unfold sharedExperiments
  apply List.Pairwise.filter
  apply store.experiments.keys_ascending.imp
  intro a b hlt
  exact nameBytes_lt_iff.mpr hlt

/-- The names that are attempted are the configured ones without those that are not stored. -/
theorem sharedExperiments_eq (store : Store) (config : Config) :
    sharedExperiments store config = config.experiments.keys.filter store.experiments.contains :=
  Table.filter_keys_comm store.experiments config.experiments

theorem sharedExperiments_of_all_stored
    (h : ∀ name ∈ config.experiments.keys, store.experiments.contains name = true) :
    sharedExperiments store config = config.experiments.keys := by
  rw [sharedExperiments_eq]
  exact List.filter_eq_self.mpr h

/-- A run estimates its names one by one, and each that fails ends it. -/
theorem estimateAttempted_eq_ok_iff {named : Option String} {results : List ExperimentEstimates} :
    estimateAttempted path store config named = .ok results ↔
      attemptedExperiments store config named ≠ [] ∧
        (attemptedExperiments store config named).mapM
          (estimateExperiment store config config.estimator.estimator) = .ok results := by
  unfold estimateAttempted
  by_cases hnil : attemptedExperiments store config named = []
  · simp [hnil]
  · rw [if_neg (by simpa using hnil), mapM_mapError_eq_ok_iff]
    simp [hnil]

theorem estimateAttempted_of_nothing_shared (h : sharedExperiments store config = []) :
    estimateAttempted path store config none = .error (.nothingToEstimate path) := by
  unfold estimateAttempted attemptedExperiments
  rw [h]
  rfl

theorem estimateAttempted_of_missing
    (h : config.profile? name = none ∨ store.experiments.contains name = false) :
    estimateAttempted path store config (some name)
      = .error (.notEstimated name (.notFound name)) := by
  unfold estimateAttempted attemptedExperiments
  rw [if_neg (by simp), List.mapM_cons, estimateExperiment_eq_notFound _ h]
  rfl

theorem estimateAttempted_of_named {estimates : ExperimentEstimates}
    (h : estimateExperiment store config config.estimator.estimator name = .ok estimates) :
    estimateAttempted path store config (some name) = .ok [estimates] := by
  rw [estimateAttempted_eq_ok_iff]
  refine ⟨List.cons_ne_nil name [], mapM_eq_ok_iff.mpr ?_⟩
  exact congrArg (fun x => [x]) h

theorem missing_of_not_shared
    (h : ¬ (store.experiments.contains name = true ∧ config.experiments.contains name = true)) :
    config.profile? name = none ∨ store.experiments.contains name = false := by
  cases hstored : store.experiments.contains name with
  | false => exact Or.inr rfl
  | true =>
    left
    apply Table.contains_eq_false_iff.mp
    exact Bool.eq_false_iff.mpr fun hconfigured => h ⟨hstored, hconfigured⟩

/-- No estimation of a name fails that both tables have. -/
theorem Store.IsConsistent.exists_shared (h : store.IsConsistent)
    (hname : name ∈ sharedExperiments store config) :
    ∃ estimates, estimateExperiment store config config.estimator.estimator name
      = .ok estimates := by
  obtain ⟨hstored, hconfigured⟩ := mem_sharedExperiments.mp hname
  have hprofile : config.profile? name ≠ none :=
    Option.ne_none_iff_exists'.mpr (Table.contains_iff.mp hconfigured)
  exact h.exists_estimates _ hprofile hstored

/-- So all of them are estimated, one by one. -/
theorem Store.IsConsistent.exists_shared_results (h : store.IsConsistent) (config : Config) :
    ∃ results, (sharedExperiments store config).mapM
      (estimateExperiment store config config.estimator.estimator) = .ok results :=
  exists_mapM_eq_ok fun _ hname => h.exists_shared hname

/-! ## §4. When a run fails -/

/-- A run without a name fails if there is nothing to attempt, and for no other reason. -/
theorem Store.IsConsistent.all_fails_iff (h : store.IsConsistent) (path time : String)
    {directory : String} {t : FileTree} (haccepts : t.AcceptsReports directory) :
    (estimateRun path store config none directory time t).FailsUnwritten t ↔
      sharedExperiments store config = [] := by
  constructor
  · intro hfails
    apply Classical.byContradiction
    intro hne
    obtain ⟨results, hresults⟩ := h.exists_shared_results config
    have hattempted : estimateAttempted path store config none = .ok results :=
      estimateAttempted_eq_ok_iff.mpr ⟨hne, hresults⟩
    rw [estimateRun_of_ok hattempted] at hfails
    exact not_failsUnwritten_report haccepts _ hfails
  · intro hnil
    rw [estimateRun_of_error (estimateAttempted_of_nothing_shared hnil)]
    exact failsUnwritten_failed rfl t

/-- A run with a name fails if one of the tables lacks it, and for no other reason. -/
theorem Store.IsConsistent.named_fails_iff (h : store.IsConsistent) (path name time : String)
    {directory : String} {t : FileTree} (haccepts : t.AcceptsReports directory) :
    (estimateRun path store config (some name) directory time t).FailsUnwritten t ↔
      ¬ (store.experiments.contains name = true ∧ config.experiments.contains name = true) := by
  constructor
  · intro hfails hboth
    obtain ⟨estimates, hestimates⟩ := h.exists_shared (mem_sharedExperiments.mpr hboth)
    rw [estimateRun_of_ok (estimateAttempted_of_named hestimates)] at hfails
    exact not_failsUnwritten_report haccepts _ hfails
  · intro hnot
    rw [estimateRun_of_error (estimateAttempted_of_missing (missing_of_not_shared hnot))]
    exact failsUnwritten_failed rfl t

/-- The estimation of all fails if a configured name is not stored. -/
theorem Store.IsConsistent.estimateAll_of_missing (h : store.IsConsistent)
    (hname : name ∈ config.experiments.keys) (hmissing : store.experiments.contains name = false)
    (e : Estimator Float) :
    ∃ first ∈ config.experiments.keys, store.experiments.contains first = false ∧
      estimateAll store config e = .error (.notFound first) := by
  rcases store.all_stored_or_first_missing config with hall | hfirst
  · rw [hall name hname] at hmissing
    cases hmissing
  · obtain ⟨before, first, after, hkeys, hbefore, hfirst⟩ := hfirst
    refine ⟨first, ?_, hfirst, h.estimateAll_eq_error e hkeys hbefore hfirst⟩
    rw [hkeys]
    exact List.mem_append_right before List.mem_cons_self

end

/-- The store of a file is consistent, whether it decides flags anew or not. -/
theorem isConsistent_of_openStore [Codec] {path : String} {content : PathContent} {opened : Store}
    (h : openStore path content = .ok opened) (on : Bool) :
    (opened.withRecompute on).IsConsistent := by
  unfold openStore at h
  cases hdump : readStoreFile path content with
  | error error =>
    rw [hdump] at h
    cases h
  | ok dump =>
    rw [hdump] at h
    cases h
    exact ((holds_ofDump dump).withRecompute on).toIsConsistent

/-! ## §5. What every run does -/

/-- What runs of the estimate command do with the store of a file and a configuration, compared
with the estimation of all configured experiments. -/
structure SelectsShared [Codec] (path : String) (content : PathContent) (store : Store)
    (config : Config) : Prop where
  /-- Every command line that asks for estimates from that file, under that configuration, is
  such a run. The configuration is one that `loadConfigOr` reads. That reader knows a part of
  YAML only and refuses the rest of it, so nothing is said here of files with anchors, tags or
  block scalars. -/
  command_line : ∀ arguments i named method directory base time (t : FileTree),
    Request.ofArguments arguments = .run i →
    i.command = .estimate named method directory →
    loadConfigOr i.config t.content = .ok base → base.override i.overrides = .ok config →
    i.store = path → t.content path = content →
    runCommandLine arguments t time = estimateRun path store config named directory time t
  /-- Without a name, those are attempted that are both stored and configured, -/
  attempted_iff : ∀ name, name ∈ attemptedExperiments store config none ↔
    store.experiments.contains name = true ∧ config.experiments.contains name = true
  /-- in the order of bytes, -/
  attempted_in_byte_order :
    (attemptedExperiments store config none).Pairwise fun a b => nameBytes a < nameBytes b
  /-- and none of them fails. -/
  attempted_succeed : ∀ name ∈ attemptedExperiments store config none,
    ∃ estimates, estimateExperiment store config config.estimator.estimator name = .ok estimates
  /-- If there are any, the report is about all of them. -/
  reports_attempted : attemptedExperiments store config none ≠ [] → ∃ results,
    (attemptedExperiments store config none).map
      (estimateExperiment store config config.estimator.estimator) = results.map .ok ∧
    ∀ directory time t, estimateRun path store config none directory time t
      = ((runReport path config time results).plan directory).perform t
  /-- Where reports can be written, the plan of a report leaves it in the directory. -/
  leaves_reports : ∀ results directory time (t : FileTree), t.AcceptsReports directory →
    (((runReport path config time results).plan directory).perform t).Reports
      (runReport path config time results) directory t
  /-- If there are none, the run fails without touching a file, -/
  fails_without : attemptedExperiments store config none = [] → ∀ directory time t,
    estimateRun path store config none directory time t = .failed t (.nothingToEstimate path)
  /-- and where reports can be written it fails for no other reason. -/
  fails_iff : ∀ directory time (t : FileTree), t.AcceptsReports directory →
    ((estimateRun path store config none directory time t).FailsUnwritten t ↔
      attemptedExperiments store config none = [])
  /-- If all configured names are stored, the report is about the estimates of all of them. -/
  all_stored : (∀ name ∈ config.experiments.keys, store.experiments.contains name = true) →
    ∃ results, estimateAll store config config.estimator.estimator = .ok results ∧
      ∀ directory time t, estimateRun path store config none directory time t
        = ((runReport path config time results).plan directory).perform t
  /-- If one is not stored, the estimation of all fails, and the run passes over it. -/
  some_missing : ∀ name ∈ config.experiments.keys, store.experiments.contains name = false →
    (∃ first ∈ config.experiments.keys, store.experiments.contains first = false ∧
      estimateAll store config config.estimator.estimator = .error (.notFound first)) ∧
    attemptedExperiments store config none
      = config.experiments.keys.filter store.experiments.contains
  /-- A single name is reported if it is stored and configured. -/
  reports_named : ∀ name, store.experiments.contains name = true →
    config.experiments.contains name = true → ∃ estimates,
      estimateExperiment store config config.estimator.estimator name = .ok estimates ∧
      ∀ directory time t, estimateRun path store config (some name) directory time t
        = ((runReport path config time [estimates]).plan directory).perform t
  /-- Else the run fails without touching a file, -/
  named_fails : ∀ name,
    ¬ (store.experiments.contains name = true ∧ config.experiments.contains name = true) →
    ∀ directory time t, estimateRun path store config (some name) directory time t
      = .failed t (.notEstimated name (.notFound name))
  /-- and where reports can be written it fails for no other reason. -/
  named_fails_iff : ∀ name directory time (t : FileTree), t.AcceptsReports directory →
    ((estimateRun path store config (some name) directory time t).FailsUnwritten t ↔
      ¬ (store.experiments.contains name = true ∧ config.experiments.contains name = true))

/-- Runs of the estimate command on a file that was opened, under a valid configuration, attempt
the names that are stored and configured. None of them fails, and the report is about the
estimates of all configured names if all are stored. -/
theorem estimate_command_selects_shared [Codec] {path : String} {content : PathContent}
    {opened : Store} {config : Config} (hopen : openStore path content = .ok opened)
    (hvalid : config.validate = .ok ()) :
    SelectsShared path content (opened.withRecompute config.selection.recompute) config where
  command_line := by
    rintro arguments i named method directory base time t harguments hcommand hbase hconfig
      rfl rfl
    exact runCommandLine_estimate harguments hcommand hbase hconfig hopen
  attempted_iff := fun _ => mem_sharedExperiments
  attempted_in_byte_order := sharedExperiments_in_byte_order _ config
  attempted_succeed := fun _ hname => (isConsistent_of_openStore hopen _).exists_shared hname
  reports_attempted := by
    intro hne
    have hconsistent := isConsistent_of_openStore hopen config.selection.recompute
    obtain ⟨results, hresults⟩ := hconsistent.exists_shared_results config
    refine ⟨results, mapM_eq_ok_iff.mp hresults, ?_⟩
    exact estimateRun_of_ok (estimateAttempted_eq_ok_iff.mpr ⟨hne, hresults⟩)
  leaves_reports := fun _ _ _ _ haccepts => perform_report haccepts _
  fails_without := fun hnil =>
    estimateRun_of_error (estimateAttempted_of_nothing_shared hnil)
  fails_iff := fun _ time _ haccepts =>
    (isConsistent_of_openStore hopen _).all_fails_iff path time haccepts
  all_stored := by
    intro hall
    have hconsistent := isConsistent_of_openStore hopen config.selection.recompute
    have hkeys := sharedExperiments_of_all_stored hall
    obtain ⟨results, hresults⟩ := hconsistent.exists_shared_results config
    refine ⟨results, ?_, estimateRun_of_ok (estimateAttempted_eq_ok_iff.mpr ⟨?_, hresults⟩)⟩
    · rw [estimateAll, ← hkeys]
      exact hresults
    · show sharedExperiments _ config ≠ []
      rw [hkeys]
      exact Config.experiments_ne_nil hvalid
  some_missing := by
    intro name hname hmissing
    refine ⟨?_, sharedExperiments_eq _ config⟩
    exact (isConsistent_of_openStore hopen _).estimateAll_of_missing hname hmissing _
  reports_named := by
    intro name hstored hconfigured
    obtain ⟨estimates, hestimates⟩ := (isConsistent_of_openStore hopen _).exists_shared
      (mem_sharedExperiments.mpr ⟨hstored, hconfigured⟩)
    exact ⟨estimates, hestimates, estimateRun_of_ok (estimateAttempted_of_named hestimates)⟩
  named_fails := fun _ hnot =>
    estimateRun_of_error (estimateAttempted_of_missing (missing_of_not_shared hnot))
  named_fails_iff := fun name _ time _ haccepts =>
    (isConsistent_of_openStore hopen _).named_fails_iff path name time haccepts

/-- A dump with two experiments, of which one is among the built-in ones. -/
def labText : String :=
  "\x7b\"experiments\": [[2, \"lab_run\"], [1, \"exp1\"]], \"samples\": []\x7d"

/-- Runs on the file of `labText` under the built-in configuration attempt `exp1` alone. -/
theorem labText_selects_shared :
    Config.builtIn.validate = .ok () ∧
      ∃ opened, openStore "a.json" (.file labText.toUTF8) = .ok opened ∧
        sharedExperiments opened Config.builtIn = ["exp1"] ∧
        SelectsShared "a.json" (.file labText.toUTF8)
          (opened.withRecompute Config.builtIn.selection.recompute) Config.builtIn := by
  have hvalid : Config.builtIn.validate = .ok () := rfl
  have hshared : (openStore "a.json" (.file labText.toUTF8)).toOption.map
      (fun opened => sharedExperiments opened Config.builtIn) = some ["exp1"] := by decide +kernel
  obtain ⟨opened, hopen, hnames⟩ := exists_ok_of_view hshared
  exact ⟨hvalid, opened, hopen, hnames, estimate_command_selects_shared hopen hvalid⟩

end ProbeGap
