import ProbeGap.Estimate.Experiment
import ProbeGap.Proofs.Fallible
import ProbeGap.Proofs.Sorting
import ProbeGap.Proofs.Store.DumpText
import ProbeGap.Proofs.Store.Frame
import ProbeGap.Proofs.Store.History

/-!
# The two forms of a store file

A snapshot is opened as the store of the dump it was written from, with each sample at the time
that the text of its time stands for. A dump in JSON is opened as the store of that dump with
its numbers read again, and a number does not always come back as it was. So the two files of
a dump are opened as the same store exactly if all its numbers do, given that all of them are
finite.

Nothing of a store is lost that could hide a changed number: the buckets list all samples,
each under its own experiment, and a sample that is read again keeps its experiment.

Main statement: `openStore_eq_iff`. `driftingDump` is a dump whose two files differ.
-/

namespace ProbeGap

/-! ## §1. Samples that come back -/

theorem reread?_eq_some_iff {s t : Sample Float} :
    s.reread? = some t ↔ ∃ gin gout length, rereadFloat? s.gin = some gin ∧
      rereadFloat? s.gout = some gout ∧ rereadFloat? s.length = some length ∧
      t = { s.carried with gin, gout, length } := by
  simp only [Sample.reread?, Option.bind_eq_bind, Option.bind_eq_some_iff]
  constructor
  · rintro ⟨gin, hgin, gout, hgout, length, hlength, h⟩
    cases h
    exact ⟨gin, gout, length, hgin, hgout, hlength, rfl⟩
  · rintro ⟨gin, gout, length, hgin, hgout, hlength, rfl⟩
    exact ⟨gin, hgin, gout, hgout, length, hlength, rfl⟩

/-- A sample comes back from JSON as from a snapshot if its numbers come back as they were. -/
theorem reread?_eq_carried_iff {s : Sample Float} :
    s.reread? = some s.carried ↔ ∀ x ∈ s.numbers, rereadFloat? x = some x := by
  simp only [Sample.numbers, List.forall_mem_cons, List.not_mem_nil, false_implies, implies_true,
    and_true]
  constructor
  · intro h
    obtain ⟨gin, gout, length, hgin, hgout, hlength, hs⟩ := reread?_eq_some_iff.mp h
    have hginSame : s.gin = gin := congrArg (·.gin) hs
    have hgoutSame : s.gout = gout := congrArg (·.gout) hs
    have hlengthSame : s.length = length := congrArg (·.length) hs
    rw [← hginSame] at hgin
    rw [← hgoutSame] at hgout
    rw [← hlengthSame] at hlength
    exact ⟨hgin, hgout, hlength⟩
  · rintro ⟨hgin, hgout, hlength⟩
    exact reread?_eq_some_iff.mpr ⟨s.gin, s.gout, s.length, hgin, hgout, hlength, rfl⟩

/-- Samples that are read again keep their experiments. -/
theorem experiments_of_reread? {xs ys : List (Sample Float)}
    (h : xs.map Sample.reread? = ys.map some) :
    xs.map (·.experiment) = ys.map (·.experiment) := by
  induction xs generalizing ys with
  | nil =>
    rw [List.map_eq_nil_iff.mp h.symm]
  | cons x xs ih =>
    cases ys with
    | nil => cases h
    | cons y ys =>
      obtain ⟨hhead, htail⟩ := List.cons.inj h
      obtain ⟨gin, gout, length, -, -, -, hy⟩ := reread?_eq_some_iff.mp hhead
      rw [List.map_cons, List.map_cons, ih htail, hy]
      rfl

theorem experiments_carried (xs : List (Sample Float)) :
    (xs.map Sample.carried).map (·.experiment) = xs.map (·.experiment) := by
  rw [List.map_map]
  rfl

/-- Lists of samples are told apart by their buckets if the experiments are the same place by
place. -/
theorem eq_of_buckets {xs ys : List (Sample Float)}
    (hexperiments : xs.map (·.experiment) = ys.map (·.experiment))
    (hbuckets : ∀ id : ExperimentId,
      xs.filter (·.experiment = id) = ys.filter (·.experiment = id)) : xs = ys := by
  induction xs generalizing ys with
  | nil => exact (List.map_eq_nil_iff.mp hexperiments.symm).symm
  | cons x xs ih =>
    cases ys with
    | nil => cases hexperiments
    | cons y ys =>
      obtain ⟨hexperiment, hrest⟩ := List.cons.inj hexperiments
      -- The first samples are of one experiment, so each is the first in the bucket of it.
      obtain ⟨hxy, htails⟩ := eq_and_groups_of_cons hexperiment hbuckets
      rw [hxy, ih hrest htails]

/-- Stores of dumps tell their samples apart in the same way. -/
theorem samples_eq_of_ofDump_eq {d e : Dump} (h : Store.ofDump d = Store.ofDump e)
    (hexperiments : d.samples.map (·.experiment) = e.samples.map (·.experiment)) :
    d.samples = e.samples := by
  apply eq_of_buckets hexperiments
  intro id
  rw [← (holds_ofDump d).buckets id, ← (holds_ofDump e).buckets id, h]

/-! ## §2. Opened files -/

section files

variable [Codec]

theorem openStore_snapshotFile [LawfulCodec] {d : Dump} (hd : d.IsCountable) {path : String}
    (hpath : isSnapshotPath path = true) :
    openStore path (.file (snapshotFile d)) = .ok (Store.ofDump d.carried) := by
  unfold openStore readStoreFile
  rw [if_pos hpath, readSnapshot_snapshotFile hd]
  rfl

theorem openStore_dumpFile (d : Dump) {path : String} (hpath : isSnapshotPath path = false) :
    openStore path (.file (dumpFile d))
      = (readDumpFile path (.file (dumpFile d))).map Store.ofDump := by
  have hother : ¬ isSnapshotPath path = true := by simp [hpath]
  unfold openStore readStoreFile
  rw [if_neg hother]

/-- The samples of a dump that can be opened, all numbers of which are finite. -/
theorem exists_samples_of_openStore {d : Dump} (hfinite : ∀ s ∈ d.samples, s.isFinite = true)
    {path : String} (hpath : isSnapshotPath path = false) {store : Store}
    (h : openStore path (.file (dumpFile d)) = .ok store) :
    ∃ kept, d.samples.map Sample.reread? = kept.map some ∧
      store = Store.ofDump ⟨d.experiments, kept⟩ := by
  rw [openStore_dumpFile d hpath, readDumpFile_dumpFile] at h
  cases hrows : rereadItems? (rowRoom + 1) (d.samples.map (·.toJson)) with
  | none =>
    rw [hrows] at h
    cases h
  | some rows =>
    rw [hrows] at h
    obtain ⟨rows', kept, hrows', hkept, hread⟩ :=
      exists_rows (isReadable_of_rows hrows) rowRoom
    rw [hrows] at hrows'
    cases hrows'
    cases h
    rw [List.filter_eq_self.mpr hfinite] at hkept
    exact ⟨kept, mapM_eq_some_iff.mp hkept, by rw [hread]⟩

/-- A dump whose numbers come back as they were is opened as its snapshot is. -/
theorem openStore_dumpFile_of_steady {d : Dump}
    (hsteady : ∀ s ∈ d.samples, ∀ x ∈ s.numbers, rereadFloat? x = some x)
    (hfinite : ∀ s ∈ d.samples, s.isFinite = true) {path : String}
    (hpath : isSnapshotPath path = false) :
    openStore path (.file (dumpFile d)) = .ok (Store.ofDump d.carried) := by
  have hreadable : ∀ s ∈ d.samples, s.IsReadable := by
    intro s hs x hx _
    rw [hsteady s hs x hx]
    rfl
  have hsame : d.samples.map Sample.reread? = (d.samples.map Sample.carried).map some := by
    rw [List.map_map]
    exact List.map_congr_left fun s hs => reread?_eq_carried_iff.mpr (hsteady s hs)
  obtain ⟨rows, kept, hrows, hkept, hread⟩ := exists_rows hreadable rowRoom
  rw [List.filter_eq_self.mpr hfinite, mapM_eq_some_iff.mpr hsame] at hkept
  cases hkept
  rw [openStore_dumpFile d hpath, readDumpFile_dumpFile, hrows]
  simp only [hread]
  rfl

/-! ## §3. Agreement -/

/-- The two files of a dump with finite numbers are opened as the same store exactly if the
text of every number is read as that number. -/
theorem openStore_eq_iff [LawfulCodec] {d : Dump} (hd : d.IsCountable)
    (hfinite : ∀ s ∈ d.samples, s.isFinite = true) {dumpPath snapshotPath : String}
    (hdump : isSnapshotPath dumpPath = false) (hsnapshot : isSnapshotPath snapshotPath = true) :
    openStore dumpPath (.file (dumpFile d)) = openStore snapshotPath (.file (snapshotFile d)) ↔
      ∀ s ∈ d.samples, ∀ x ∈ s.numbers, rereadFloat? x = some x := by
  rw [openStore_snapshotFile hd hsnapshot]
  constructor
  · intro h
    obtain ⟨kept, hkept, hstore⟩ := exists_samples_of_openStore hfinite hdump h
    have hexperiments := experiments_of_reread? hkept
    rw [← experiments_carried] at hexperiments
    have hsame : d.samples.map Sample.carried = kept :=
      samples_eq_of_ofDump_eq hstore hexperiments
    rw [← hsame, List.map_map] at hkept
    intro s hs
    exact reread?_eq_carried_iff.mp (List.map_inj_left.mp hkept s hs)
  · intro hsteady
    exact openStore_dumpFile_of_steady hsteady hfinite hdump

end files

/-- Two packets of a length that is read as the next smaller double. -/
def driftingDump : Dump where
  experiments := [⟨1, "exp1"⟩]
  samples := [⟨7, 1, 0.004, 0.0058, 1184.9775832740397, false, none⟩,
    ⟨7, 1, 0.002, 0.004, 1184.9775832740397, false, none⟩]

/-- A configuration in which that length is the least one. -/
def driftingConfig : Config :=
  { Config.builtIn with selection := { packetSize := 1184.9775832740397, minConfidence := 1 } }

theorem driftingDump_isCountable : driftingDump.IsCountable where
  experiments := by decide
  samples := by decide
  names := by decide +kernel

/-- The two files of `driftingDump` are opened as different stores. -/
theorem driftingDump_differs :
    driftingDump.IsCountable ∧ (∀ s ∈ driftingDump.samples, s.isFinite = true) ∧
      isSnapshotPath "a.json" = false ∧ isSnapshotPath "a.zst" = true ∧
      openStore "a.json" (.file (dumpFile driftingDump))
        ≠ openStore "a.zst" (.file (snapshotFile driftingDump)) := by
  have hfinite : ∀ s ∈ driftingDump.samples, s.isFinite = true := by decide +kernel
  have hdump : isSnapshotPath "a.json" = false := by decide +kernel
  have hsnapshot : isSnapshotPath "a.zst" = true := by decide +kernel
  refine ⟨driftingDump_isCountable, hfinite, hdump, hsnapshot, fun h => ?_⟩
  have hsteady := (openStore_eq_iff driftingDump_isCountable hfinite hdump hsnapshot).mp h
  exact absurd hsteady (by decide +kernel)

/-- With the flags decided anew, the link of `driftingDump` has a valid estimate in the store
of the snapshot, and no row at all in the store of the JSON file. -/
theorem driftingDump_estimates_differ :
    (∀ s ∈ driftingDump.samples, s.isFinite = true) ∧
      (openStore "a.zst" (.file (snapshotFile driftingDump))).toOption.map (fun store =>
        (estimateExperiment (store.withRecompute true) driftingConfig
          driftingConfig.estimator.estimator "exp1").toOption.map
            (fun estimates => estimates.links.map (·.status))) = some (some [.valid]) ∧
      (openStore "a.json" (.file (dumpFile driftingDump))).toOption.map (fun store =>
        (estimateExperiment (store.withRecompute true) driftingConfig
          driftingConfig.estimator.estimator "exp1").toOption.map
            (fun estimates => estimates.links.map (·.status))) = some (some []) := by
  refine ⟨by decide +kernel, ?_, ?_⟩
  · rw [openStore_snapshotFile driftingDump_isCountable (by decide +kernel)]
    decide +kernel
  · rw [openStore_dumpFile driftingDump (by decide +kernel), readDumpFile_dumpFile]
    decide +kernel

end ProbeGap
