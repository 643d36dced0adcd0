import ProbeGap.Config.Basic
import ProbeGap.Proofs.Estimate.Experiment
import ProbeGap.Proofs.Synth.Drawing

/-!
# Generated flags and recomputed flags

Generated samples are marked twice in different ways. The generator marks the samples of a link
when it has drawn them, and sees no others. A store that decides flags anew marks all samples of
an experiment together, whatever flags they came with. The flags are the same: each link is
drawn once, so what the store finds for a link is what the generator saw, and marking looks
neither at other links nor at flags.

Main statement: `generated_flags_are_recomputed`.
-/

namespace ProbeGap

variable {σ : Type} [WordSource σ] {spec : SynthSpec} {profile : Profile} {name : String}

/-! ## §1. Marking all links together -/

/-- To mark all generated samples again changes nothing. -/
theorem markCandidates_of_yields {samples : List (Sample Float)}
    (h : Yields (generate profile spec : Drawing σ (List (Sample Float))) samples) :
    markCandidates (spec.query profile) samples = samples := by
  obtain ⟨observations, hnumbers, rfl, hobservations⟩ := observations_of_yields h
  have hascending : (observations.map (·.1)).Pairwise (· < ·) := by
    rw [hnumbers]
    exact List.pairwise_lt_range
  have hdisjoint : (observations.map (·.2)).Pairwise
      fun xs ys => ∀ x ∈ xs, ∀ y ∈ ys, x.link ≠ y.link := by
    rw [List.pairwise_map]
    apply (List.pairwise_map.mp hascending).imp_of_mem
    intro o p ho hp hlt
    exact (hobservations o ho).disjoint (hobservations p hp) (Nat.ne_of_lt hlt)
  rw [markCandidates_flatten hdisjoint, List.map_map]
  congr 1
  apply List.map_congr_left
  intro o ho
  exact (hobservations o ho).marked

theorem experiment_of_yields {samples : List (Sample Float)}
    (h : Yields (generate profile spec : Drawing σ (List (Sample Float))) samples) :
    ∀ s ∈ samples, s.experiment = spec.experiment := by
  obtain ⟨observations, -, rfl, hobservations⟩ := observations_of_yields h
  intro s hs
  obtain ⟨xs, hxs, hmem⟩ := List.mem_flatten.mp hs
  obtain ⟨o, ho, rfl⟩ := List.mem_map.mp hxs
  exact (hobservations o ho).experiment s hmem

/-- The dump that is drawn names one experiment, and has the samples that are drawn for it. -/
theorem generateDump_yields {g g' : σ} {dump : Dump}
    (h : generateDump name profile spec g = .ok (dump, g')) :
    dump.experiments = [⟨spec.experiment, name⟩] ∧
      Yields (generate profile spec : Drawing σ (List (Sample Float))) dump.samples := by
  have hyields : Yields (generateDump name profile spec : Drawing σ Dump) dump := ⟨g, g', h⟩
  obtain ⟨samples, hsamples, hpure⟩ := hyields.of_bind
  rw [hpure.of_pure]
  exact ⟨rfl, hsamples⟩

/-! ## §2. Stores with one experiment -/

section

variable {store : Store} {rows : List (Sample Float)}

theorem resolve_of_holds (hstore : store.Holds ⟨[⟨spec.experiment, name⟩], rows⟩) :
    store.resolve name = .ok spec.experiment := by
  rw [resolve_eq_ok_iff, hstore.names]
  unfold lastId?
  simp

theorem known_of_holds (hstore : store.Holds ⟨[⟨spec.experiment, name⟩], rows⟩) :
    store.samples.get? spec.experiment ≠ none :=
  hstore.known (resolve_eq_ok_iff.mp (resolve_of_holds hstore))

theorem samplesOf_of_holds (hstore : store.Holds ⟨[⟨spec.experiment, name⟩], rows⟩)
    (hrows : ∀ s ∈ rows, s.experiment = spec.experiment) :
    store.samplesOf spec.experiment = rows := by
  rw [hstore.buckets, List.filter_eq_self]
  intro s hs
  exact decide_eq_true (hrows s hs)

/-- A store that holds nothing but the samples of an experiment selects from all of them. -/
theorem candidates_of_holds (hstore : store.Holds ⟨[⟨spec.experiment, name⟩], rows⟩)
    (hrows : ∀ s ∈ rows, s.experiment = spec.experiment) :
    store.candidates (spec.query profile) =
      .ok (if store.recompute then markCandidates (spec.query profile) rows else rows) := by
  have hwindow : rows.filter (Store.isWithin (spec.query profile).window) = rows := by
    rw [List.filter_eq_self]
    intro s _
    rfl
  rw [candidates_of_known (known_of_holds hstore)]
  unfold Store.select
  rw [show (spec.query profile).experiment = spec.experiment from rfl,
    samplesOf_of_holds hstore hrows, hwindow]

end

/-! ## §3. Generated flags are recomputed -/

/-- A generated dump may lose its flags or have them changed: a store that decides the flags anew
still answers with the samples as they were generated, flags included. So it gives the estimates
of the store that takes the generated flags as they are. -/
theorem generated_flags_are_recomputed {g g' : σ} {dump : Dump} {rows : List (Sample Float)}
    (hdump : generateDump name profile spec g = .ok (dump, g'))
    (hrows : rows.map Sample.unmarked = dump.samples.map Sample.unmarked) :
    ((Store.ofDump { dump with samples := rows }).withRecompute true).candidates
        { experiment := spec.experiment
          maxCapacity := profile.physicalCapacity
          packetSize := spec.selection.packetSize
          minConfidence := spec.selection.minConfidence
          window := none } = .ok dump.samples ∧
      ∀ (config : Config) (e : Estimator Float), config.profile? name = some profile →
        config.selection.packetSize = spec.selection.packetSize →
        config.selection.minConfidence = spec.selection.minConfidence →
        config.selection.window = none →
        estimateExperiment ((Store.ofDump { dump with samples := rows }).withRecompute true)
            config e name =
          estimateExperiment (Store.ofDump dump) config e name := by
  obtain ⟨experiments, samples⟩ := dump
  obtain ⟨rfl, hsamples⟩ := generateDump_yields hdump
  dsimp only at hsamples hrows ⊢
  have hmarked : markCandidates (spec.query profile) rows = samples :=
    (markCandidates_congr _ hrows).trans (markCandidates_of_yields hsamples)
  have hexperiment : ∀ s ∈ rows, s.experiment = spec.experiment := by
    intro s hs
    -- The sample was generated, but for its flag.
    have hmem : s.unmarked ∈ samples.map Sample.unmarked := by
      rw [← hrows]
      exact List.mem_map_of_mem hs
    obtain ⟨t, ht, heq⟩ := List.mem_map.mp hmem
    have hsame : t.unmarked.experiment = s.unmarked.experiment := congrArg Sample.experiment heq
    exact hsame.symm.trans (experiment_of_yields hsamples t ht)
  have hstripped := (holds_ofDump ⟨[⟨spec.experiment, name⟩], rows⟩).withRecompute true
  have hstored := holds_ofDump ⟨[⟨spec.experiment, name⟩], samples⟩
  have hleft : ((Store.ofDump ⟨[⟨spec.experiment, name⟩], rows⟩).withRecompute true).candidates
      (spec.query profile) = .ok samples := by
    rw [candidates_of_holds hstripped hexperiment, ← hmarked]
    rfl
  have hright : (Store.ofDump ⟨[⟨spec.experiment, name⟩], samples⟩).candidates
      (spec.query profile) = .ok samples := by
    rw [candidates_of_holds hstored (experiment_of_yields hsamples), recompute_ofDump]
    rfl
  refine ⟨hleft, fun config e hprofile hpacket hconfidence hwindow => ?_⟩
  have hresolve := resolve_of_holds hstored
  apply estimateExperiment_congr ((resolve_of_holds hstripped).trans hresolve.symm)
  intro id profile' hid hprofile'
  have hid' : id = spec.experiment := by
    rw [resolve_of_holds hstripped] at hid
    exact (Except.ok.inj hid).symm
  have hquery : config.selection.query id profile'.physicalCapacity = spec.query profile := by
    rw [hprofile] at hprofile'
    cases hprofile'
    unfold SelectionSettings.query SynthSpec.query SelectionSettings.query
    rw [hid', hpacket, hconfidence, hwindow]
  rw [hquery, hleft, hright]

/-- Three samples of each of two links. -/
def twoLinks : SynthSpec where
  experiment := 1
  links := 2
  samplesPerLink := 3
  bandwidth := 250000
  start := .ofSeconds 86400 (by decide)

/-- Words under which some samples of both links are marked. -/
def fewWords : CyclicWords where
  words := #[0x8000000000000000, 0x4000000000000000, 0xC000000000000000, 0xE000000000000000,
    0x123456789ABCDEF0]

/-- The dump of `twoLinks` loses its flags, three of them set. -/
theorem flags_of_twoLinks_are_recomputed :
    ∃ dump rest, generateDump "exp1" ⟨5000000, 10000000⟩ twoLinks fewWords = .ok (dump, rest) ∧
      dump.samples.map (·.used) = [false, true, false, false, true, true] ∧
      ((Store.ofDump { dump with samples := dump.samples.map Sample.unmarked }).withRecompute
          true).candidates
          { experiment := 1, maxCapacity := 1250000, packetSize := 1362, minConfidence := 0.1 }
        = .ok dump.samples ∧
      ∀ e : Estimator Float,
        estimateExperiment
            ((Store.ofDump { dump with samples := dump.samples.map Sample.unmarked }).withRecompute
              true) Config.builtIn e "exp1" =
          estimateExperiment (Store.ofDump dump) Config.builtIn e "exp1" := by
  have hdrawn : (generateDump "exp1" ⟨5000000, 10000000⟩ twoLinks fewWords).toOption.map
      (fun drawn => drawn.1.samples.map (·.used)) =
        some [false, true, false, false, true, true] := by decide +kernel
  obtain ⟨⟨dump, rest⟩, hdump, hflags⟩ := exists_ok_of_view hdrawn
  have hrows : (dump.samples.map Sample.unmarked).map Sample.unmarked
      = dump.samples.map Sample.unmarked := by
    rw [List.map_map]
    rfl
  obtain ⟨hcandidates, hestimates⟩ := generated_flags_are_recomputed hdump hrows
  have hcapacity : Profile.physicalCapacity ⟨5000000, 10000000⟩ = 1250000 := by decide +kernel
  rw [hcapacity] at hcandidates
  exact ⟨dump, rest, hdump, hflags, hcandidates,
    fun e => hestimates Config.builtIn e (by decide +kernel) rfl rfl rfl⟩

end ProbeGap
