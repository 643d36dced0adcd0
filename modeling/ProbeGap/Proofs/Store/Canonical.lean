import ProbeGap.Proofs.Store.Reloading
import ProbeGap.Proofs.Text.ByteOrder

/-!
# The canonical form of a dump

A dump may list its names and samples in any order, give a name again, and have samples of
experiments that it does not name. A store that is loaded from it keeps all of that but the order
in which experiments were mixed and the identifiers that were taken from a name. What the store
then writes is the canonical form of the dump: every name once, in byte order, with its last
identifier, and the samples by experiment, those of one experiment in the order of the dump.

The form is unique (`IsCanonicalFormOf.unique`), and a dump that has the order of a canonical one
is its own. So loading leaves exactly the canonical dumps as they are, and a second time changes
nothing (`loading_canonicalises`).
-/

namespace ProbeGap

/-! ## §1. Canonical dumps -/

/-- The samples in ascending order of their experiments. Those of one experiment keep their
order. -/
def byExperiment (samples : List (Sample Float)) : List (Sample Float) :=
  sortBy (fun a b => decide (a.experiment ≤ b.experiment)) samples

/-- The entry of a list of experiments behind which its name is not given again. -/
def IsLastEntry (experiments : List ExperimentInfo) (info : ExperimentInfo) : Prop :=
  ∃ before after, experiments = before ++ info :: after ∧
    ∀ other ∈ after, other.name ≠ info.name

/-- A dump that lists every name once, in byte order, and its samples by experiment. -/
structure Dump.IsCanonical (d : Dump) : Prop where
  names_ascending : d.experiments.Pairwise fun a b => nameBytes a.name < nameBytes b.name
  samples_ascending : d.samples.Pairwise fun a b => a.experiment ≤ b.experiment

/-- A canonical dump with the same samples and the same meaning of names as another. -/
structure Dump.IsCanonicalFormOf (c d : Dump) : Prop extends c.IsCanonical where
  /-- The samples are sorted, and equal experiments keep their order. -/
  samples_sorted : c.samples = byExperiment d.samples
  /-- No sample is lost and none is added. -/
  samples_perm : c.samples.Perm d.samples
  /-- Within an experiment the samples stand as they did. -/
  samples_within : ∀ id, c.samples.filter (·.experiment = id) =
    d.samples.filter (·.experiment = id)
  /-- Names have the identifiers that they were given last. -/
  last_entries : ∀ info, info ∈ c.experiments ↔ IsLastEntry d.experiments info
  /-- No name is lost. -/
  names_kept : ∀ info ∈ d.experiments, ∃ kept ∈ c.experiments, kept.name = info.name

/-! ## §2. Samples by experiment -/

section

variable {xs ys : List (Sample Float)}

theorem ascending_iff :
    (xs.Pairwise fun a b => a.experiment ≤ b.experiment) ↔
      xs.Pairwise fun a b => ¬ b.experiment < a.experiment := by
  simp only [UInt64.not_lt]

/-- Samples in ascending order are what any list with the same samples of each experiment is
sorted to. -/
theorem eq_byExperiment (hxs : xs.Pairwise fun a b => a.experiment ≤ b.experiment)
    (hwithin : ∀ id, xs.filter (·.experiment = id) = ys.filter (·.experiment = id)) :
    xs = byExperiment ys := by
  have horder : (fun a b : Sample Float => !decide (b.experiment < a.experiment)) =
      fun a b => decide (a.experiment ≤ b.experiment) := by
    funext a b
    rw [← decide_not, decide_eq_decide]
    exact UInt64.not_lt
  have hsorted := eq_sortBy_of_groups (ascending_iff.mp hxs) hwithin
  rw [horder] at hsorted
  exact hsorted

end

/-! ## §3. Last entries -/

section

variable {experiments : List ExperimentInfo} {info : ExperimentInfo}

/-- The last entry of a name is the one that look-up from behind finds. -/
theorem isLastEntry_iff :
    IsLastEntry experiments info ↔ lastId? experiments info.name = some info.id := by
  unfold lastId?
  rw [Option.map_eq_some_iff]
  constructor
  · rintro ⟨before, after, rfl, hafter⟩
    refine ⟨info, ?_, rfl⟩
    rw [List.find?_eq_some_iff_append]
    refine ⟨decide_eq_true rfl, after.reverse, before.reverse, by simp, ?_⟩
    intro other hother
    simpa using hafter other (List.mem_reverse.mp hother)
  · rintro ⟨found, hfind, hid⟩
    obtain ⟨hname, behind, front, hreverse, hbehind⟩ := List.find?_eq_some_iff_append.mp hfind
    have hfound : found = info := by
      cases found
      cases info
      simp only [decide_eq_true_eq] at hname
      subst hname hid
      rfl
    subst hfound
    refine ⟨front.reverse, behind.reverse, ?_, ?_⟩
    · rw [← List.reverse_reverse experiments, hreverse]
      simp
    · intro other hother
      simpa using hbehind other (List.mem_reverse.mp hother)

/-- Where names ascend every entry is the last of its name. -/
theorem isLastEntry_of_ascending
    (hascending : experiments.Pairwise fun a b => nameBytes a.name < nameBytes b.name) :
    info ∈ experiments ↔ IsLastEntry experiments info := by
  constructor
  · intro hmem
    obtain ⟨before, after, rfl⟩ := List.append_of_mem hmem
    refine ⟨before, after, rfl, ?_⟩
    intro other hother hname
    have hbehind := (List.pairwise_cons.mp (List.pairwise_append.mp hascending).2.1).1
    have hlt := hbehind other hother
    rw [hname] at hlt
    exact List.lt_irrefl _ hlt
  · rintro ⟨before, after, rfl, -⟩
    exact List.mem_append_right _ List.mem_cons_self

end

/-! ## §4. Canonical forms -/

variable {c d : Dump}

/-- A dump has one canonical form. -/
theorem Dump.IsCanonicalFormOf.unique {c' : Dump} (h : c.IsCanonicalFormOf d)
    (h' : c'.IsCanonicalFormOf d) : c = c' := by
  have hexperiments : c.experiments = c'.experiments := by
    have hnames : ∀ {e : Dump}, e.IsCanonical →
        e.experiments.Pairwise fun a b => a.name < b.name := by
      intro e he
      exact he.names_ascending.imp nameBytes_lt_iff.mp
    apply eq_of_ascending_of_mem_iff (hnames h.toIsCanonical) (hnames h'.toIsCanonical)
    intro info
    rw [h.last_entries, h'.last_entries]
  have hsamples : c.samples = c'.samples := by
    rw [h.samples_sorted, h'.samples_sorted]
  cases c
  cases c'
  cases hexperiments
  cases hsamples
  rfl

/-- A canonical dump is its own canonical form. -/
theorem Dump.IsCanonical.isCanonicalFormOf_self (h : d.IsCanonical) : d.IsCanonicalFormOf d where
  toIsCanonical := h
  samples_sorted := eq_byExperiment h.samples_ascending fun _ => rfl
  samples_perm := .refl _
  samples_within := fun _ => rfl
  last_entries := fun _ => isLastEntry_of_ascending h.names_ascending
  names_kept := fun info hinfo => ⟨info, hinfo, rfl⟩

/-- What a store writes lists names in byte order, and samples by experiment. -/
theorem Store.IsConsistent.isCanonical_toDump {s : Store} (h : s.IsConsistent) :
    s.toDump.IsCanonical where
  names_ascending := by
    show (s.experiments.entries.map _).Pairwise _
    rw [List.pairwise_map]
    exact s.experiments.ascending.imp nameBytes_lt_iff.mpr
  samples_ascending := ascending_iff.mpr h.samples_ascending

/-- A store that holds a log writes its canonical form. -/
theorem Store.Holds.isCanonicalFormOf {s : Store} {log : Dump} (h : s.Holds log) :
    s.toDump.IsCanonicalFormOf log := by
  have hcanonical := h.toIsConsistent.isCanonical_toDump
  have hwithin : ∀ id, s.toDump.samples.filter (·.experiment = id) =
      log.samples.filter (·.experiment = id) := by
    intro id
    rw [h.filter_samples, h.buckets]
  have hsorted : s.toDump.samples = byExperiment log.samples :=
    eq_byExperiment hcanonical.samples_ascending hwithin
  have hlast : ∀ info, info ∈ s.toDump.experiments ↔ IsLastEntry log.experiments info := by
    intro info
    rw [mem_experiments_toDump, h.names, isLastEntry_iff]
  refine ⟨hcanonical, hsorted, ?_, hwithin, hlast, ?_⟩
  · rw [hsorted]
    exact sortBy_perm _ _
  · intro info hinfo
    obtain ⟨id, hid⟩ := exists_lastId?_of_mem hinfo
    exact ⟨⟨id, info.name⟩, (hlast _).mpr (isLastEntry_iff.mpr hid), rfl⟩

/-- To load a dump and write it again gives its canonical form. That form is left as it is by
another time, and so are the canonical dumps and no others. -/
theorem loading_canonicalises (d : Dump) :
    (Store.ofDump d).toDump.IsCanonicalFormOf d ∧
      (Store.ofDump (Store.ofDump d).toDump).toDump = (Store.ofDump d).toDump ∧
      ((Store.ofDump d).toDump = d ↔ d.IsCanonical) := by
  have hform : ∀ dump, (Store.ofDump dump).toDump.IsCanonicalFormOf dump :=
    fun dump => (holds_ofDump dump).isCanonicalFormOf
  have hfixed : ∀ dump : Dump, dump.IsCanonical → (Store.ofDump dump).toDump = dump :=
    fun dump h => (hform dump).unique h.isCanonicalFormOf_self
  refine ⟨hform d, hfixed _ (hform d).toIsCanonical, ?_, hfixed d⟩
  intro hsame
  rw [← hsame]
  exact (hform d).toIsCanonical

/-- A name that moved has its last identifier, and a sample without a name is kept. -/
example : (Store.ofDump ⟨[⟨2, "b"⟩, ⟨1, "a"⟩, ⟨3, "b"⟩],
      [sampleAt 7 1 1, { sampleAt 8 1 1 with experiment := 0 }, sampleAt 9 1 1]⟩).toDump =
    ⟨[⟨1, "a"⟩, ⟨3, "b"⟩],
      [{ sampleAt 8 1 1 with experiment := 0 }, sampleAt 7 1 1, sampleAt 9 1 1]⟩ := by
  rfl

end ProbeGap
