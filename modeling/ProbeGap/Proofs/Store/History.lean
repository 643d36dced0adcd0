import ProbeGap.Proofs.Table
import ProbeGap.Store.Basic

/-!
# Stores and their histories

A store is changed in four ways: a name is given to an experiment, a sample is added, the
recompute switch is set, or another store is loaded from a dump. A *history* is a list of
such steps, and the store of a history is what they make of the empty store.

Beside the store runs a log, which lists the names and samples added since the last load in
the order in which they came. The invariant ties the two together (`Store.Holds`): every
name leads to the identifier that the log gave it last, that identifier is known, and the
bucket of an identifier holds its samples in the order of the log, whether a name leads to
it or not.

## Contents

  * `StoreStep`, `Store.after`: steps and the store of a history.
  * `after_induction`: what every step keeps holds of every history.
  * `Store.Holds`: the invariant. Each way to change a store keeps it; `holds_after` is for
    runs.
  * `Store.IsConsistent`: the part of the invariant that does not mention a log.
-/

namespace ProbeGap

/-! ## §1. Steps and histories -/

/-- A way to change a store. -/
inductive StoreStep where
  | addExperiment (info : ExperimentInfo)
  | addSample (sample : Sample Float)
  | withRecompute (on : Bool)
  /-- Begin again with the store of a dump. -/
  | load (dump : Dump)

/-- The store after a step. -/
def Store.step (s : Store) : StoreStep → Store
  | .addExperiment info => s.addExperiment info
  | .addSample sample => s.addSample sample
  | .withRecompute on => s.withRecompute on
  | .load dump => Store.ofDump dump

/-- The store of a history. -/
def Store.after (history : List StoreStep) : Store :=
  history.foldl Store.step .empty

/-- The log after a step. -/
def Dump.step (log : Dump) : StoreStep → Dump
  | .addExperiment info => { log with experiments := log.experiments ++ [info] }
  | .addSample sample => { log with samples := log.samples ++ [sample] }
  | .withRecompute _ => log
  | .load dump => dump

/-- What a history has added since the last load, in order. -/
def logOf (history : List StoreStep) : Dump :=
  history.foldl Dump.step ⟨[], []⟩

/-- The identifier that a list of experiments gives to a name last. -/
def lastId? (experiments : List ExperimentInfo) (name : String) : Option ExperimentId :=
  (experiments.reverse.find? (·.name = name)).map (·.id)

/-! ## §2. Induction over histories

What holds of the empty store and its empty log, and is kept by each way to change a store,
holds of every store of a history. Loading begins again with the empty store and adds what
the dump lists, so it needs no case of its own. -/

section induction

variable {motive : Store → Dump → Prop}

/-- What additions keep holds of a loaded store and its dump. -/
theorem ofDump_induction (empty : motive .empty ⟨[], []⟩)
    (addExperiment : ∀ {s log} (info : ExperimentInfo), motive s log →
      motive (s.addExperiment info) { log with experiments := log.experiments ++ [info] })
    (addSample : ∀ {s log} (x : Sample Float), motive s log →
      motive (s.addSample x) { log with samples := log.samples ++ [x] })
    (dump : Dump) : motive (Store.ofDump dump) dump := by
  have hexperiments : ∀ (infos : List ExperimentInfo) (s : Store) (log : Dump), motive s log →
      motive (infos.foldl Store.addExperiment s)
        { log with experiments := log.experiments ++ infos } := by
    intro infos
    induction infos with
    | nil =>
      intro s log h
      rw [List.append_nil]
      exact h
    | cons info infos ih =>
      intro s log h
      have hrest := ih _ _ (addExperiment info h)
      rw [List.append_assoc] at hrest
      exact hrest
  have hsamples : ∀ (xs : List (Sample Float)) (s : Store) (log : Dump), motive s log →
      motive (xs.foldl Store.addSample s) { log with samples := log.samples ++ xs } := by
    intro xs
    induction xs with
    | nil =>
      intro s log h
      rw [List.append_nil]
      exact h
    | cons x xs ih =>
      intro s log h
      have hrest := ih _ _ (addSample x h)
      rw [List.append_assoc] at hrest
      exact hrest
  exact hsamples dump.samples _ _ (hexperiments dump.experiments _ _ empty)

/-- What every step keeps holds of the store and the log of a history. -/
theorem after_induction (empty : motive .empty ⟨[], []⟩)
    (addExperiment : ∀ {s log} (info : ExperimentInfo), motive s log →
      motive (s.addExperiment info) { log with experiments := log.experiments ++ [info] })
    (addSample : ∀ {s log} (x : Sample Float), motive s log →
      motive (s.addSample x) { log with samples := log.samples ++ [x] })
    (withRecompute : ∀ {s log} (on : Bool), motive s log → motive (s.withRecompute on) log)
    (history : List StoreStep) : motive (Store.after history) (logOf history) := by
  have hstep : ∀ (s : Store) (log : Dump) (step : StoreStep), motive s log →
      motive (s.step step) (log.step step) := by
    intro s log step h
    cases step with
    | addExperiment info => exact addExperiment info h
    | addSample x => exact addSample x h
    | withRecompute on => exact withRecompute on h
    | load dump => exact ofDump_induction empty addExperiment addSample dump
  -- The run starts from any store, as the induction moves the start along the history.
  have hrun : ∀ (s : Store) (log : Dump), motive s log →
      motive (history.foldl Store.step s) (history.foldl Dump.step log) := by
    induction history with
    | nil => exact fun s log h => h
    | cons step rest ih => exact fun s log h => ih _ _ (hstep s log step h)
  exact hrun .empty ⟨[], []⟩ empty

end induction

/-! ## §3. The invariant -/

/-- A store in which names lead to known identifiers, and samples lie in the buckets of
their own experiments. -/
structure Store.IsConsistent (s : Store) : Prop where
  /-- Every name leads to an identifier that has a bucket. -/
  named_known : ∀ name id, s.resolve name = .ok id → ∃ bucket, s.samples.get? id = some bucket
  /-- Every sample lies in the bucket of its own experiment. -/
  own_bucket : ∀ id bucket, s.samples.get? id = some bucket →
    ∀ x ∈ bucket, x.experiment = id

/-- A store that holds what a log lists. -/
structure Store.Holds (s : Store) (log : Dump) : Prop extends Store.IsConsistent s where
  /-- A name leads where the log let it lead last. -/
  names : ∀ name, s.experiments.get? name = lastId? log.experiments name
  /-- A bucket holds the samples of its experiment in the order of the log. -/
  buckets : ∀ id, s.samplesOf id = log.samples.filter (·.experiment = id)

variable {s : Store} {log : Dump}

theorem resolve_eq_ok_iff {name : String} {id : ExperimentId} :
    s.resolve name = .ok id ↔ s.experiments.get? name = some id := by
  unfold Store.resolve
  cases s.experiments.get? name with
  | none => simp
  | some id' => simp

theorem mem_samplesOf {id : ExperimentId} {bucket : Array (Sample Float)} {x : Sample Float}
    (hbucket : s.samples.get? id = some bucket) (hx : x ∈ bucket) : x ∈ s.samplesOf id := by
  unfold Store.samplesOf
  rw [hbucket]
  exact Array.mem_toList_iff.mpr hx

/-- The invariant, from what look-up finds. That samples lie in the buckets of their own
experiments follows from what the buckets hold. -/
theorem Store.Holds.of_lookup
    (hnames : ∀ name, s.experiments.get? name = lastId? log.experiments name)
    (hknown : ∀ name id, s.experiments.get? name = some id → s.samples.get? id ≠ none)
    (hbuckets : ∀ id, s.samplesOf id = log.samples.filter (·.experiment = id)) :
    s.Holds log where
  named_known := by
    intro name id hresolve
    exact Option.ne_none_iff_exists'.mp (hknown name id (resolve_eq_ok_iff.mp hresolve))
  own_bucket := by
    intro id bucket hbucket x hx
    have hmem := mem_samplesOf hbucket hx
    rw [hbuckets id] at hmem
    exact of_decide_eq_true (List.mem_filter.mp hmem).2
  names := hnames
  buckets := hbuckets

theorem Store.Holds.known (h : s.Holds log) {name : String} {id : ExperimentId}
    (hid : s.experiments.get? name = some id) : s.samples.get? id ≠ none := by
  obtain ⟨bucket, hbucket⟩ := h.named_known name id (resolve_eq_ok_iff.mpr hid)
  rw [hbucket]
  exact Option.some_ne_none bucket

/-! ## §4. What a step does to look-up -/

/-- A bucket stays, and is made where there is none. -/
theorem get?_samples_addExperiment (info : ExperimentInfo) (id : ExperimentId) :
    (s.addExperiment info).samples.get? id =
      if id = info.id then some ((s.samples.get? id).getD #[]) else s.samples.get? id := by
  unfold Store.addExperiment
  by_cases hid : id = info.id
  · subst hid
    rw [if_pos rfl, Table.get?_update_self]
  · rw [if_neg hid, Table.get?_update_of_ne _ hid]

/-- A sample is put behind the others of its experiment. -/
theorem get?_samples_addSample (x : Sample Float) (id : ExperimentId) :
    (s.addSample x).samples.get? id =
      if id = x.experiment then some (((s.samples.get? id).getD #[]).push x)
      else s.samples.get? id := by
  unfold Store.addSample
  by_cases hid : id = x.experiment
  · subst hid
    rw [if_pos rfl, Table.get?_update_self]
  · rw [if_neg hid, Table.get?_update_of_ne _ hid]

theorem lastId?_append (experiments : List ExperimentInfo) (info : ExperimentInfo)
    (name : String) :
    lastId? (experiments ++ [info]) name =
      if info.name = name then some info.id else lastId? experiments name := by
  unfold lastId?
  rw [List.reverse_append, List.reverse_singleton, List.singleton_append, List.find?_cons]
  by_cases hname : info.name = name
  · simp [hname]
  · simp [hname]

/-! ## §5. Steps keep the invariant -/

/-- The empty store holds the empty log. -/
theorem holds_empty : Store.empty.Holds ⟨[], []⟩ := by
  refine .of_lookup (fun name => rfl) (fun name id hid => ?_) (fun id => rfl)
  cases hid

/-- A name is led to an identifier, for which there is a bucket from then on. -/
theorem Store.Holds.addExperiment (h : s.Holds log) (info : ExperimentInfo) :
    (s.addExperiment info).Holds { log with experiments := log.experiments ++ [info] } := by
  refine .of_lookup (fun name => ?_) (fun name id hid => ?_) (fun id => ?_)
  · rw [lastId?_append]
    by_cases hname : info.name = name
    · subst hname
      rw [if_pos rfl]
      exact Table.get?_insert_self s.experiments info.name info.id
    · rw [if_neg hname, ← h.names]
      exact Table.get?_insert_of_ne s.experiments (Ne.symm hname) info.id
  · rw [get?_samples_addExperiment]
    by_cases hinfo : id = info.id
    · rw [if_pos hinfo]
      exact Option.some_ne_none _
    · -- Another identifier is not what this name leads to, so it was known before.
      have hname : name ≠ info.name := by
        intro heq
        subst heq
        have hself := Table.get?_insert_self s.experiments info.name info.id
        exact hinfo (Option.some.inj (hid.symm.trans hself))
      rw [if_neg hinfo]
      exact h.known ((Table.get?_insert_of_ne s.experiments hname info.id).symm.trans hid)
  · rw [← h.buckets]
    unfold Store.samplesOf
    rw [get?_samples_addExperiment]
    by_cases hinfo : id = info.id
    · rw [if_pos hinfo]
      rfl
    · rw [if_neg hinfo]

/-- A sample becomes the last of its experiment and changes nothing else. -/
theorem Store.Holds.addSample (h : s.Holds log) (x : Sample Float) :
    (s.addSample x).Holds { log with samples := log.samples ++ [x] } := by
  refine .of_lookup h.names (fun name id hid => ?_) (fun id => ?_)
  · rw [get?_samples_addSample]
    by_cases hx : id = x.experiment
    · rw [if_pos hx]
      exact Option.some_ne_none _
    · rw [if_neg hx]
      exact h.known hid
  · rw [List.filter_append, ← h.buckets]
    unfold Store.samplesOf
    rw [get?_samples_addSample]
    by_cases hx : id = x.experiment
    · subst hx
      simp
    · have hother : ¬ x.experiment = id := fun heq => hx heq.symm
      simp [hx, hother]

theorem Store.Holds.withRecompute (h : s.Holds log) (on : Bool) :
    (s.withRecompute on).Holds log :=
  .of_lookup h.names (fun _ _ hid => h.known hid) h.buckets

/-- A loaded store holds its dump. -/
theorem holds_ofDump (dump : Dump) : (Store.ofDump dump).Holds dump :=
  ofDump_induction (motive := Store.Holds) holds_empty
    (fun info h => h.addExperiment info) (fun x h => h.addSample x) dump

/-- A loaded store takes the flags as they are. -/
theorem recompute_ofDump (dump : Dump) : (Store.ofDump dump).recompute = false :=
  ofDump_induction (motive := fun s _ => s.recompute = false) rfl (fun _ h => h) (fun _ h => h)
    dump

/-- The store of a history holds the log of the history. -/
theorem holds_after (history : List StoreStep) :
    (Store.after history).Holds (logOf history) :=
  after_induction (motive := Store.Holds) holds_empty
    (fun info h => h.addExperiment info) (fun x h => h.addSample x)
    (fun on h => h.withRecompute on) history

/-- A name that is given again leads to its new identifier. -/
example : (Store.after [.addExperiment ⟨1, "a"⟩, .addExperiment ⟨2, "a"⟩]).resolve "a"
    = .ok 2 := by rfl

end ProbeGap
