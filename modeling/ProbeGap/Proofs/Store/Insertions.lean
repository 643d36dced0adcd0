import ProbeGap.Proofs.Store.Reloading

/-!
# Insertions in another order

Names and samples are inserted into a store one by one. Two insertions have to keep their order if
they give the same name, or if they add samples to the same experiment, as the last name counts
and samples are kept in the order in which they come. All others commute, also if a name is led to
the experiment that the other insertion adds a sample to: either of them makes the bucket if there
is none.

So insertions have a *slot*, and what is inserted may be mixed in any way that leaves the order
within the slots alone. The argument is that of commuting steps in general: whatever comes first
in one run is moved to the front of the other, past steps of other slots only (`foldl_move_front`),
and the rest of both runs agrees within the slots again (`foldl_eq_of_groups`).

Main statement: `insertions_commute`.
-/

namespace ProbeGap

/-! ## §1. Runs of steps that commute -/

section runs

variable {σ τ κ : Type} {step : σ → τ → σ} {key : τ → κ}

/-- Steps with different keys commute. -/
def CommutesAcross (step : σ → τ → σ) (key : τ → κ) : Prop :=
  ∀ s x y, key x ≠ key y → step (step s x) y = step (step s y) x

/-- A step is taken first as well as behind steps with other keys. -/
theorem foldl_move_front (hcomm : CommutesAcross step key) {x : τ} {before : List τ}
    (hbefore : ∀ y ∈ before, key y ≠ key x) (after : List τ) (s : σ) :
    (before ++ x :: after).foldl step s = (before ++ after).foldl step (step s x) := by
  induction before generalizing s with
  | nil => rfl
  | cons y before ih =>
    have hy : key y ≠ key x := hbefore y List.mem_cons_self
    have hrest := ih (fun z hz => hbefore z (List.mem_cons_of_mem y hz)) (step s y)
    rw [hcomm s y x hy] at hrest
    exact hrest

/-- Runs that take the steps with each key in the same order end alike. -/
theorem foldl_eq_of_groups [DecidableEq κ] (hcomm : CommutesAcross step key) {xs ys : List τ}
    (hgroups : ∀ k, xs.filter (key · = k) = ys.filter (key · = k)) (s : σ) :
    xs.foldl step s = ys.foldl step s := by
  induction xs generalizing ys s with
  | nil =>
    cases ys with
    | nil => rfl
    | cons y ys =>
      have hnil : y ∈ ([] : List τ) :=
        mem_of_groups (fun k => (hgroups k).symm) List.mem_cons_self
      cases hnil
  | cons x xs ih =>
    -- `x` is the first step with its key in the other run, too.
    have hown := hgroups (key x)
    rw [List.filter_cons_of_pos (by simp)] at hown
    obtain ⟨before, after, rfl, hbefore, -, -⟩ := List.filter_eq_cons_iff.mp hown.symm
    have hother : ∀ y ∈ before, key y ≠ key x := fun y hy => by simpa using hbefore y hy
    rw [foldl_move_front hcomm hother]
    apply ih
    intro k
    have hk := hgroups k
    by_cases hxk : key x = k
    · subst hxk
      have hnone : before.filter (key · = key x) = [] :=
        List.filter_eq_nil_iff.mpr hbefore
      simpa [hnone] using hk
    · simpa [hxk] using hk

end runs

/-! ## §2. Insertions -/

/-- A call that adds to a store. -/
inductive Insertion where
  | experiment (info : ExperimentInfo)
  | sample (x : Sample Float)
  deriving DecidableEq

/-- What an insertion may not be moved past: others of the same name, or other samples of the same
experiment. -/
inductive Slot where
  | name (name : String)
  | samples (id : ExperimentId)
  deriving DecidableEq

/-- The slot of an insertion. -/
def Insertion.slot : Insertion → Slot
  | .experiment info => .name info.name
  | .sample x => .samples x.experiment

@[simp] theorem Insertion.slot_experiment (info : ExperimentInfo) :
    (Insertion.experiment info).slot = .name info.name := rfl

@[simp] theorem Insertion.slot_sample (x : Sample Float) :
    (Insertion.sample x).slot = .samples x.experiment := rfl

/-- The store after an insertion. -/
def Store.insert (s : Store) : Insertion → Store
  | .experiment info => s.addExperiment info
  | .sample x => s.addSample x

/-- The store after a run of insertions. -/
def Store.insertAll (s : Store) (run : List Insertion) : Store :=
  run.foldl Store.insert s

/-- Runs with the same insertions in every slot, in the same order. -/
def SameInSlots (run run' : List Insertion) : Prop :=
  ∀ slot, run.filter (·.slot = slot) = run'.filter (·.slot = slot)

/-- Only the slots of the insertions matter. -/
theorem sameInSlots_iff {run run' : List Insertion} :
    SameInSlots run run' ↔ ∀ x ∈ run ++ run',
      run.filter (·.slot = x.slot) = run'.filter (·.slot = x.slot) := by
  constructor
  · intro h x _
    exact h x.slot
  · intro h slot
    by_cases hslot : ∃ x ∈ run ++ run', x.slot = slot
    · obtain ⟨x, hx, rfl⟩ := hslot
      exact h x hx
    · have hnone : ∀ x ∈ run ++ run', ¬ decide (x.slot = slot) = true :=
        fun x hx hdecide => hslot ⟨x, hx, of_decide_eq_true hdecide⟩
      rw [List.filter_eq_nil_iff.mpr fun x hx => hnone x (List.mem_append_left _ hx),
        List.filter_eq_nil_iff.mpr fun x hx => hnone x (List.mem_append_right _ hx)]

instance (run run' : List Insertion) : Decidable (SameInSlots run run') :=
  decidable_of_iff _ sameInSlots_iff.symm

/-! ## §3. Insertions commute across slots -/

section

variable (s : Store)

/-- Names that are different are given in either order. Both may be led to one experiment. -/
theorem addExperiment_comm {a b : ExperimentInfo} (hne : a.name ≠ b.name) :
    (s.addExperiment a).addExperiment b = (s.addExperiment b).addExperiment a := by
  have hnames : (s.experiments.insert a.name a.id).insert b.name b.id =
      (s.experiments.insert b.name b.id).insert a.name a.id :=
    s.experiments.update_comm hne _ _
  have hbuckets : (s.samples.update a.id (·.getD #[])).update b.id (·.getD #[]) =
      (s.samples.update b.id (·.getD #[])).update a.id (·.getD #[]) := by
    by_cases hid : a.id = b.id
    · rw [hid]
    · exact s.samples.update_comm hid _ _
  unfold Store.addExperiment
  simp only [hnames, hbuckets]

/-- Samples of different experiments are added in either order. -/
theorem addSample_comm {x y : Sample Float} (hne : x.experiment ≠ y.experiment) :
    (s.addSample x).addSample y = (s.addSample y).addSample x := by
  unfold Store.addSample
  simp only [s.samples.update_comm hne]

/-- A name and a sample are added in either order. -/
theorem addExperiment_addSample_comm (info : ExperimentInfo) (x : Sample Float) :
    (s.addExperiment info).addSample x = (s.addSample x).addExperiment info := by
  have hbuckets : (s.samples.update info.id (·.getD #[])).update x.experiment
        (fun rows => (rows.getD #[]).push x) =
      (s.samples.update x.experiment fun rows => (rows.getD #[]).push x).update info.id
        (·.getD #[]) := by
    by_cases hid : info.id = x.experiment
    · -- The name makes the bucket of the sample, or finds it made.
      rw [hid, Table.update_update, Table.update_update]
      rfl
    · exact s.samples.update_comm hid _ _
  unfold Store.addExperiment Store.addSample
  simp only [hbuckets]

end

theorem insert_commutesAcross : CommutesAcross Store.insert Insertion.slot := by
  intro s x y hne
  cases x with
  | experiment a =>
    cases y with
    | experiment b => exact addExperiment_comm s fun heq => hne (congrArg Slot.name heq)
    | sample y => exact addExperiment_addSample_comm s a y
  | sample x =>
    cases y with
    | experiment b => exact (addExperiment_addSample_comm s b x).symm
    | sample y => exact addSample_comm s fun heq => hne (congrArg Slot.samples heq)

/-! ## §4. The samples of a run -/

/-- The sample of an insertion, if it is one of an experiment. -/
def Insertion.sampleOf? (id : ExperimentId) : Insertion → Option (Sample Float)
  | .experiment _ => none
  | .sample x => if x.experiment = id then some x else none

@[simp] theorem Insertion.sampleOf?_experiment (id : ExperimentId) (info : ExperimentInfo) :
    (Insertion.experiment info).sampleOf? id = none := rfl

@[simp] theorem Insertion.sampleOf?_sample (id : ExperimentId) (x : Sample Float) :
    (Insertion.sample x).sampleOf? id = if x.experiment = id then some x else none := rfl

theorem filter_slot_samples (id : ExperimentId) (run : List Insertion) :
    run.filter (·.slot = .samples id) = (run.filterMap (·.sampleOf? id)).map .sample := by
  induction run with
  | nil => rfl
  | cons x run ih =>
    cases x with
    | experiment info => simpa [List.filterMap_cons] using ih
    | sample x =>
      by_cases hid : x.experiment = id
      · simp [hid, ih]
      · simp [hid, ih]

theorem samplesOf_insert (s : Store) (x : Insertion) (id : ExperimentId) :
    (s.insert x).samplesOf id = s.samplesOf id ++ (x.sampleOf? id).toList := by
  cases x with
  | experiment info =>
    unfold Store.insert Store.samplesOf
    simp only [get?_samples_addExperiment]
    by_cases hid : id = info.id
    · simp [hid]
    · simp [hid]
  | sample x =>
    unfold Store.insert Store.samplesOf
    simp only [get?_samples_addSample]
    by_cases hid : id = x.experiment
    · simp [hid]
    · have hother : ¬ x.experiment = id := fun heq => hid heq.symm
      simp [hid, hother]

/-- After a run an experiment has the samples it had, and behind them those of the run in their
order. -/
theorem samplesOf_insertAll (s : Store) (run : List Insertion) (id : ExperimentId) :
    (s.insertAll run).samplesOf id = s.samplesOf id ++ run.filterMap (·.sampleOf? id) := by
  induction run generalizing s with
  | nil => exact (List.append_nil _).symm
  | cons x run ih =>
    show ((s.insert x).insertAll run).samplesOf id = _
    rw [ih, samplesOf_insert, List.append_assoc, List.filterMap_cons]
    cases x.sampleOf? id with
    | none => rfl
    | some found => rfl

/-! ## §5. Mixed runs -/

/-- Runs with the same insertions in every slot lead to the same store, so all queries have the
same answers. The order of the samples of an experiment cannot be given up: where stores are the
same, so is that order. -/
theorem insertions_commute (s : Store) (run run' : List Insertion) :
    (SameInSlots run run' →
      s.insertAll run = s.insertAll run' ∧
        (s.insertAll run).AnswersLike (s.insertAll run') ∧
        ∀ q, (s.insertAll run).candidates q = (s.insertAll run').candidates q) ∧
    (s.insertAll run = s.insertAll run' →
      ∀ id, run.filter (·.slot = .samples id) = run'.filter (·.slot = .samples id)) := by
  constructor
  · intro h
    have hsame : s.insertAll run = s.insertAll run' :=
      foldl_eq_of_groups insert_commutesAcross h s
    rw [hsame]
    exact ⟨rfl, ⟨rfl, fun _ => rfl, fun _ => rfl, rfl, fun _ _ _ => rfl⟩, fun _ => rfl⟩
  · intro hsame id
    have hsamples : s.samplesOf id ++ run.filterMap (·.sampleOf? id) =
        s.samplesOf id ++ run'.filterMap (·.sampleOf? id) := by
      rw [← samplesOf_insertAll, ← samplesOf_insertAll, hsame]
    rw [filter_slot_samples, filter_slot_samples, List.append_cancel_left hsamples]

/-- A name that moves from experiment 1 to experiment 2, another one for experiment 1, and samples
of both and of a third experiment. -/
def namesFirst : List Insertion :=
  [.experiment ⟨1, "a"⟩, .experiment ⟨2, "a"⟩, .experiment ⟨1, "b"⟩, .sample (sampleAt 7 1 1),
    .sample (sampleAt 8 1 1), .sample { sampleAt 7 1 1 with experiment := 2 },
    .sample { sampleAt 7 1 1 with experiment := 3 }]

/-- The same insertions, mixed. -/
def samplesFirst : List Insertion :=
  [.sample { sampleAt 7 1 1 with experiment := 3 }, .sample (sampleAt 7 1 1),
    .experiment ⟨1, "b"⟩, .sample { sampleAt 7 1 1 with experiment := 2 },
    .experiment ⟨1, "a"⟩, .sample (sampleAt 8 1 1), .experiment ⟨2, "a"⟩]

/-- The two runs lead to the same store, beginning with eight samples of experiment 1. -/
theorem insertions_commute_namesFirst :
    SameInSlots namesFirst samplesFirst ∧
      fourLinks.insertAll namesFirst = fourLinks.insertAll samplesFirst ∧
      (fourLinks.insertAll samplesFirst).resolve "a" = .ok 2 ∧
      ((fourLinks.insertAll samplesFirst).samplesOf 1).length = 10 := by
  have hslots : SameInSlots namesFirst samplesFirst := by decide +kernel
  exact ⟨hslots, ((insertions_commute fourLinks namesFirst samplesFirst).1 hslots).1,
    by rfl, by decide +kernel⟩

end ProbeGap
