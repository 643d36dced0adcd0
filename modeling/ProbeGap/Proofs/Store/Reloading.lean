import ProbeGap.Proofs.Estimate.Experiment
import ProbeGap.Proofs.Sorting
import ProbeGap.Proofs.Store.History

/-!
# Reloading a store

A store is reloaded by dumping it and loading the dump. The dump flattens both tables: names
come out in key order, and the buckets one behind the other. What it does not hold is that
an identifier is known which no name leads to and which has no samples. Such an identifier is
*abandoned*: a name once led to it and was then given to another.

So a reloaded store answers everything as before, except that a query about an abandoned
identifier was answered by no samples and now fails.

## Contents

  * `Store.Knows`: exactly the identifiers that a log mentions are known. `knows_after` is
    for runs.
  * `Store.reloaded`: the store that comes back.
  * `Store.AnswersLike`: two stores that agree in everything but queries for candidates.
  * `IsAbandoned`: the identifiers that a reload forgets.
  * `reloaded_answers_like`: the main statement.
-/

namespace ProbeGap

variable {s : Store} {log : Dump}

/-! ## §1. Names in a list of experiments -/

theorem mem_of_lastId?_eq_some {experiments : List ExperimentInfo} {name : String}
    {id : ExperimentId} (h : lastId? experiments name = some id) :
    ⟨id, name⟩ ∈ experiments := by
  obtain ⟨info, hfind, rfl⟩ := Option.map_eq_some_iff.mp h
  have hname : info.name = name := by simpa using List.find?_some hfind
  have hmem := List.mem_reverse.mp (List.mem_of_find?_eq_some hfind)
  rw [← hname]
  exact hmem

/-- A name that is listed leads somewhere, if not where this entry lets it lead. -/
theorem exists_lastId?_of_mem {experiments : List ExperimentInfo} {info : ExperimentInfo}
    (h : info ∈ experiments) : ∃ id, lastId? experiments info.name = some id := by
  cases hlast : lastId? experiments info.name with
  | some id => exact ⟨id, rfl⟩
  | none =>
    have hnone := List.find?_eq_none.mp (Option.map_eq_none_iff.mp hlast) info
      (List.mem_reverse.mpr h)
    exact absurd (decide_eq_true rfl) hnone

/-! ## §2. The dump of a store -/

theorem mem_experiments_toDump {info : ExperimentInfo} :
    info ∈ s.toDump.experiments ↔ s.experiments.get? info.name = some info.id := by
  rw [Table.get?_eq_some_iff]
  show info ∈ s.experiments.entries.map _ ↔ _
  rw [List.mem_map]
  constructor
  · rintro ⟨⟨name, id⟩, hmem, rfl⟩
    exact hmem
  · intro hmem
    exact ⟨(info.name, info.id), hmem, rfl⟩

/-- In the dump of a store a name is listed once, where it leads in the store. -/
theorem lastId?_toDump (s : Store) (name : String) :
    lastId? s.toDump.experiments name = s.experiments.get? name := by
  cases hget : s.experiments.get? name with
  | some id =>
    have hmem : ⟨id, name⟩ ∈ s.toDump.experiments := mem_experiments_toDump.mpr hget
    obtain ⟨last, hlast⟩ := exists_lastId?_of_mem hmem
    have hsame := mem_experiments_toDump.mp (mem_of_lastId?_eq_some hlast)
    rw [hget] at hsame
    rw [hlast, Option.some.inj hsame]
  | none =>
    cases hlast : lastId? s.toDump.experiments name with
    | none => rfl
    | some last =>
      have hsame := mem_experiments_toDump.mp (mem_of_lastId?_eq_some hlast)
      rw [hget] at hsame
      cases hsame

theorem samples_toDump (s : Store) :
    s.toDump.samples = s.samples.entries.flatMap (·.2.toList) := by
  show (s.samples.entries.map (·.2)).flatMap (·.toList) = _
  rw [List.flatMap_map]

section buckets

variable {entries : List (ExperimentId × Array (Sample Float))}

/-- The buckets of ascending entries, one behind the other, ascend by experiment. -/
theorem flatMap_buckets_ascending (hentries : entries.Pairwise (·.1 < ·.1))
    (hown : ∀ e ∈ entries, ∀ x ∈ e.2, x.experiment = e.1) :
    (entries.flatMap (·.2.toList)).Pairwise fun a b => ¬ b.experiment < a.experiment := by
  rw [List.pairwise_flatMap]
  constructor
  · intro e he
    apply List.pairwise_of_forall_mem_list
    intro a ha b hb
    rw [hown e he a (Array.mem_toList_iff.mp ha), hown e he b (Array.mem_toList_iff.mp hb)]
    exact Key.irrefl _
  · apply hentries.imp_of_mem
    intro d e hd he hlt a ha b hb
    rw [hown d hd a (Array.mem_toList_iff.mp ha), hown e he b (Array.mem_toList_iff.mp hb)]
    exact fun hgt => Key.irrefl _ (Key.trans hlt hgt)

/-- Among the buckets of ascending entries, those of an experiment are its own bucket. -/
theorem filter_flatMap_buckets (hentries : entries.Pairwise (·.1 < ·.1))
    (hown : ∀ e ∈ entries, ∀ x ∈ e.2, x.experiment = e.1) (id : ExperimentId) :
    (entries.flatMap (·.2.toList)).filter (·.experiment = id)
      = ((lookupEntries id entries).getD #[]).toList := by
  induction entries with
  | nil => rfl
  | cons e rest ih =>
    obtain ⟨key, bucket⟩ := e
    have hrest := ih (List.pairwise_cons.mp hentries).2
      (fun e he => hown e (List.mem_cons_of_mem _ he))
    have hbucket : ∀ x ∈ bucket.toList, x.experiment = key := by
      intro x hx
      exact hown (key, bucket) List.mem_cons_self x (Array.mem_toList_iff.mp hx)
    rw [List.flatMap_cons, List.filter_append]
    by_cases hkey : id = key
    · subst hkey
      -- The rest has greater keys, so it has no bucket of this experiment.
      have hnone : lookupEntries id rest = none := by
        apply Option.eq_none_iff_forall_ne_some.mpr
        intro other hother
        have hmem := (lookupEntries_eq_some_iff (List.pairwise_cons.mp hentries).2).mp hother
        exact Key.irrefl id ((List.pairwise_cons.mp hentries).1 _ hmem)
      rw [hrest, hnone, lookupEntries_cons_self,
        List.filter_eq_self.mpr fun x hx => decide_eq_true (hbucket x hx)]
      exact List.append_nil _
    · have hhead : bucket.toList.filter (·.experiment = id) = [] := by
        rw [List.filter_eq_nil_iff]
        intro x hx hid
        exact hkey ((of_decide_eq_true hid).symm.trans (hbucket x hx))
      rw [hhead, hrest, lookupEntries_cons_of_ne hentries hkey]
      rfl

end buckets

theorem Store.IsConsistent.own_entry (h : s.IsConsistent) :
    ∀ e ∈ s.samples.entries, ∀ x ∈ e.2, x.experiment = e.1 := by
  rintro ⟨id, bucket⟩ he x hx
  exact h.own_bucket id bucket (Table.get?_eq_some_iff.mpr he) x hx

theorem Store.IsConsistent.samples_ascending (h : s.IsConsistent) :
    s.toDump.samples.Pairwise fun a b => ¬ b.experiment < a.experiment := by
  rw [samples_toDump]
  exact flatMap_buckets_ascending s.samples.ascending h.own_entry

/-- The dump of a store has the samples of every experiment in the order of the store. -/
theorem Store.IsConsistent.filter_samples (h : s.IsConsistent) (id : ExperimentId) :
    s.toDump.samples.filter (·.experiment = id) = s.samplesOf id := by
  rw [samples_toDump]
  exact filter_flatMap_buckets s.samples.ascending h.own_entry id

/-! ## §3. Known identifiers -/

/-- Whether an experiment or a sample of a dump has an identifier. -/
def Dump.Mentions (d : Dump) (id : ExperimentId) : Prop :=
  (∃ info ∈ d.experiments, info.id = id) ∨ ∃ x ∈ d.samples, x.experiment = id

/-- A store that knows the identifiers that a log mentions, and no others. -/
def Store.Knows (s : Store) (log : Dump) : Prop :=
  ∀ id, s.samples.get? id ≠ none ↔ log.Mentions id

theorem knows_empty : Store.empty.Knows ⟨[], []⟩ := by
  intro id
  constructor
  · intro h
    exact absurd rfl h
  · rintro (⟨info, hinfo, -⟩ | ⟨x, hx, -⟩)
    · cases hinfo
    · cases hx

theorem Store.Knows.addExperiment (h : s.Knows log) (info : ExperimentInfo) :
    (s.addExperiment info).Knows { log with experiments := log.experiments ++ [info] } := by
  intro id
  have hbefore := h id
  unfold Dump.Mentions at hbefore ⊢
  rw [get?_samples_addExperiment]
  by_cases hid : id = info.id
  · simp [hid]
  · have hother : ¬ info.id = id := fun heq => hid heq.symm
    simp only [if_neg hid, hbefore, List.mem_append, List.mem_singleton, or_and_right,
      exists_or, exists_eq_left, hother, or_false]

theorem Store.Knows.addSample (h : s.Knows log) (x : Sample Float) :
    (s.addSample x).Knows { log with samples := log.samples ++ [x] } := by
  intro id
  have hbefore := h id
  unfold Dump.Mentions at hbefore ⊢
  rw [get?_samples_addSample]
  by_cases hid : id = x.experiment
  · simp [hid]
  · have hother : ¬ x.experiment = id := fun heq => hid heq.symm
    simp only [if_neg hid, hbefore, List.mem_append, List.mem_singleton, or_and_right,
      exists_or, exists_eq_left, hother, or_false]

/-- A loaded store knows what its dump mentions. -/
theorem knows_ofDump (dump : Dump) : (Store.ofDump dump).Knows dump :=
  ofDump_induction (motive := Store.Knows) knows_empty
    (fun info h => h.addExperiment info) (fun x h => h.addSample x) dump

/-- The store of a history knows what the log of the history mentions. -/
theorem knows_after (history : List StoreStep) :
    (Store.after history).Knows (logOf history) :=
  after_induction (motive := Store.Knows) knows_empty
    (fun info h => h.addExperiment info) (fun x h => h.addSample x) (fun _ h => h) history

/-- The dump of a store mentions the identifiers that names lead to and those that have
samples. -/
theorem Store.IsConsistent.mentions_toDump_iff (h : s.IsConsistent) (id : ExperimentId) :
    s.toDump.Mentions id ↔ (∃ name, s.resolve name = .ok id) ∨ s.samplesOf id ≠ [] := by
  unfold Dump.Mentions
  constructor
  · rintro (⟨info, hinfo, rfl⟩ | ⟨x, hx, hid⟩)
    · exact Or.inl ⟨info.name, resolve_eq_ok_iff.mpr (mem_experiments_toDump.mp hinfo)⟩
    · right
      rw [← h.filter_samples]
      exact List.ne_nil_of_mem (List.mem_filter.mpr ⟨hx, decide_eq_true hid⟩)
  · rintro (⟨name, hname⟩ | hne)
    · exact Or.inl ⟨⟨id, name⟩, mem_experiments_toDump.mpr (resolve_eq_ok_iff.mp hname), rfl⟩
    · right
      rw [← h.filter_samples] at hne
      obtain ⟨x, hx⟩ := List.exists_mem_of_ne_nil _ hne
      obtain ⟨hmem, hid⟩ := List.mem_filter.mp hx
      exact ⟨x, hmem, of_decide_eq_true hid⟩

/-! ## §4. Queries that find nothing -/

theorem candidates_of_empty {q : CandidateQuery Float}
    (hknown : s.samples.get? q.experiment ≠ none) (hempty : s.samplesOf q.experiment = []) :
    s.candidates q = .ok [] := by
  rw [candidates_of_known hknown, hempty]
  unfold Store.select
  cases s.recompute with
  | false => rfl
  | true => rfl

/-! ## §5. What the reloaded store has -/

/-- The store that is loaded from the dump of a store, with the same recompute switch. -/
def Store.reloaded (s : Store) : Store :=
  (Store.ofDump s.toDump).withRecompute s.recompute

/-- Two stores that list, resolve, hold and dump the same, and give the same estimates. -/
structure Store.AnswersLike (s t : Store) : Prop where
  experiments : s.experiments.entries = t.experiments.entries
  resolve : ∀ name, s.resolve name = t.resolve name
  samples : ∀ id, s.samplesOf id = t.samplesOf id
  dump : s.toDump = t.toDump
  estimates : ∀ (config : Config) (e : Estimator Float) (name : String),
    estimateExperiment s config e name = estimateExperiment t config e name

theorem holds_reloaded (s : Store) : s.reloaded.Holds s.toDump :=
  (holds_ofDump s.toDump).withRecompute s.recompute

theorem experiments_reloaded (s : Store) : s.reloaded.experiments = s.experiments := by
  apply Table.eq_of_get?_eq
  intro name
  rw [(holds_reloaded s).names, lastId?_toDump]

theorem resolve_reloaded (s : Store) (name : String) :
    s.reloaded.resolve name = s.resolve name := by
  unfold Store.resolve
  rw [experiments_reloaded]

section

variable (h : s.IsConsistent)
include h

theorem Store.IsConsistent.samplesOf_reloaded (id : ExperimentId) :
    s.reloaded.samplesOf id = s.samplesOf id := by
  rw [(holds_reloaded s).buckets, h.filter_samples]

/-- A second dump is the first: both list the samples by experiment, and each experiment has
the same samples in the same order. -/
theorem Store.IsConsistent.toDump_reloaded : s.reloaded.toDump = s.toDump := by
  have hexperiments : s.reloaded.toDump.experiments = s.toDump.experiments := by
    unfold Store.toDump
    rw [experiments_reloaded]
  have hreloaded := (holds_reloaded s).toIsConsistent
  have hsamples : s.reloaded.toDump.samples = s.toDump.samples := by
    apply eq_of_ascending_of_groups hreloaded.samples_ascending h.samples_ascending
    intro id
    rw [hreloaded.filter_samples, h.filter_samples, h.samplesOf_reloaded]
  show (⟨s.reloaded.toDump.experiments, s.reloaded.toDump.samples⟩ : Dump) = _
  rw [hexperiments, hsamples]

/-- A reload keeps known what a name leads to or what has samples. -/
theorem Store.IsConsistent.get?_samples_reloaded_ne_none_iff (id : ExperimentId) :
    s.reloaded.samples.get? id ≠ none ↔
      (∃ name, s.resolve name = .ok id) ∨ s.samplesOf id ≠ [] :=
  (knows_ofDump s.toDump id).trans (h.mentions_toDump_iff id)

/-- What is known before and after a reload has the same candidates. -/
theorem Store.IsConsistent.candidates_reloaded_of_known (q : CandidateQuery Float)
    (hknown : s.samples.get? q.experiment ≠ none)
    (hkept : s.reloaded.samples.get? q.experiment ≠ none) :
    s.reloaded.candidates q = s.candidates q := by
  rw [candidates_of_known hknown, candidates_of_known hkept, h.samplesOf_reloaded]
  rfl

/-- A reload makes nothing known. -/
theorem Store.IsConsistent.known_of_reloaded {id : ExperimentId}
    (hkept : s.reloaded.samples.get? id ≠ none) : s.samples.get? id ≠ none := by
  rcases (h.get?_samples_reloaded_ne_none_iff id).mp hkept with ⟨name, hname⟩ | hsamples
  · obtain ⟨bucket, hbucket⟩ := h.named_known name id hname
    exact Option.ne_none_iff_exists'.mpr ⟨bucket, hbucket⟩
  · intro hnone
    apply hsamples
    unfold Store.samplesOf
    rw [hnone]
    rfl

/-- An estimation asks only for what a name leads to, and a reload keeps that known. -/
theorem Store.IsConsistent.estimateExperiment_reloaded (config : Config)
    (e : Estimator Float) (name : String) :
    estimateExperiment s.reloaded config e name = estimateExperiment s config e name := by
  apply estimateExperiment_congr (resolve_reloaded s name)
  intro id profile hresolve _
  rw [resolve_reloaded] at hresolve
  obtain ⟨bucket, hbucket⟩ := h.named_known name id hresolve
  apply h.candidates_reloaded_of_known
  · exact Option.ne_none_iff_exists'.mpr ⟨bucket, hbucket⟩
  · exact (h.get?_samples_reloaded_ne_none_iff id).mpr (Or.inl ⟨name, hresolve⟩)

theorem Store.IsConsistent.reloaded_answersLike : s.reloaded.AnswersLike s where
  experiments := by rw [experiments_reloaded]
  resolve := resolve_reloaded s
  samples := h.samplesOf_reloaded
  dump := h.toDump_reloaded
  estimates := h.estimateExperiment_reloaded

end

/-! ## §6. What the reloaded store has forgotten -/

/-- An identifier without samples, to which no name leads any more: the history let a name
lead to it, and that name leads elsewhere now. -/
structure IsAbandoned (history : List StoreStep) (id : ExperimentId) : Prop where
  empty : (Store.after history).samplesOf id = []
  unnamed : ∀ name, (Store.after history).resolve name ≠ .ok id
  moved : ∃ name other, ⟨id, name⟩ ∈ (logOf history).experiments ∧
    (Store.after history).resolve name = .ok other

/-- The abandoned identifiers are those that the store knows and the reloaded store does
not. -/
theorem isAbandoned_iff (history : List StoreStep) (id : ExperimentId) :
    IsAbandoned history id ↔ (Store.after history).samples.get? id ≠ none ∧
      (Store.after history).reloaded.samples.get? id = none := by
  have hholds := holds_after history
  have hkept := hholds.toIsConsistent.get?_samples_reloaded_ne_none_iff id
  rw [knows_after history id]
  constructor
  · intro h
    obtain ⟨name, other, hmem, -⟩ := h.moved
    refine ⟨Or.inl ⟨_, hmem, rfl⟩, ?_⟩
    apply Classical.byContradiction
    intro hne
    rcases hkept.mp hne with ⟨name', hname'⟩ | hsamples
    · exact h.unnamed name' hname'
    · exact hsamples h.empty
  · rintro ⟨hmentions, hnone⟩
    obtain ⟨hunnamed, hsamples⟩ := not_or.mp (mt hkept.mpr (not_not_intro hnone))
    have hempty : (Store.after history).samplesOf id = [] :=
      Classical.byContradiction hsamples
    refine ⟨hempty, fun name hname => hunnamed ⟨name, hname⟩, ?_⟩
    rcases hmentions with ⟨info, hinfo, hid⟩ | ⟨x, hx, hid⟩
    · obtain ⟨other, hother⟩ := exists_lastId?_of_mem hinfo
      rw [← hholds.names] at hother
      subst hid
      exact ⟨info.name, other, hinfo, resolve_eq_ok_iff.mpr hother⟩
    · -- A sample of the log lies in the bucket of its experiment, which is empty.
      rw [hholds.buckets] at hempty
      have hnot := List.filter_eq_nil_iff.mp hempty x hx
      exact absurd (decide_eq_true hid) hnot

/-- A reloaded store answers like the store, for every history. The candidates of a query are
the same as well, unless the query is about an abandoned identifier: then there were none
before, and afterwards the identifier is not known. -/
theorem reloaded_answers_like (history : List StoreStep) :
    (Store.after history).reloaded.AnswersLike (Store.after history) ∧
      (Store.after history).reloaded.recompute = (Store.after history).recompute ∧
      ∀ q : CandidateQuery Float,
        (¬ IsAbandoned history q.experiment →
          (Store.after history).reloaded.candidates q = (Store.after history).candidates q) ∧
        (IsAbandoned history q.experiment →
          (Store.after history).candidates q = .ok [] ∧
            (Store.after history).reloaded.candidates q
              = .error (.unknownId q.experiment)) := by
  have hconsistent := (holds_after history).toIsConsistent
  refine ⟨hconsistent.reloaded_answersLike, rfl, fun q => ⟨?_, ?_⟩⟩
  · intro hnot
    by_cases hknown : (Store.after history).samples.get? q.experiment = none
    · have hforgotten : (Store.after history).reloaded.samples.get? q.experiment = none :=
        Classical.byContradiction fun hkept => hconsistent.known_of_reloaded hkept hknown
      rw [candidates_of_unknown hknown, candidates_of_unknown hforgotten]
    · apply hconsistent.candidates_reloaded_of_known q hknown
      intro hforgotten
      exact hnot ((isAbandoned_iff history q.experiment).mpr ⟨hknown, hforgotten⟩)
  · intro habandoned
    obtain ⟨hknown, hforgotten⟩ := (isAbandoned_iff history q.experiment).mp habandoned
    exact ⟨candidates_of_empty hknown habandoned.empty, candidates_of_unknown hforgotten⟩

/-- A name that was moved abandons its first identifier. -/
example : (Store.after [.addExperiment ⟨1, "a"⟩, .addExperiment ⟨2, "a"⟩]).candidates
      ⟨1, 0, 0, 0, none⟩ = .ok [] ∧
    (Store.after [.addExperiment ⟨1, "a"⟩, .addExperiment ⟨2, "a"⟩]).reloaded.candidates
      ⟨1, 0, 0, 0, none⟩ = .error (.unknownId 1) := by
  constructor <;> rfl

end ProbeGap
