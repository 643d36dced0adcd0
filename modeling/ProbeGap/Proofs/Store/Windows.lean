import ProbeGap.Proofs.Estimate.Experiment
import ProbeGap.Proofs.Store.Cut

/-!
# Adjacent windows

A window has its start and not its end. So of two windows that follow each other, every row of
the window made of both lies in one and not in the other: a row at the instant between them is in
the second. Nothing is asked of the instants but that they are not out of order. Two of them may
be the same, and any may lie within a leap second, whose nanoseconds go on from one thousand
million: not to be later is transitive there as well (`Instant.le_trans`).

A window decides which rows are asked for, and only then may flags be decided anew. So a store
gives the same rows whether it decides flags or not, and what it decides is the marking of those
rows, not of all that it holds.

## Contents

  * The order of instants.
  * `Sample.IsIn`: a sample with a time in a window. `isWithin_iff` ties it to the window of a
    query.
  * `IsSplitAt`: the rows of two adjacent windows, among those of both.
  * `adjacent_windows_partition`: how the store of a history answers for such windows.
-/

namespace ProbeGap

/-! ## §1. The order of instants -/

section instants

variable {s t u : Instant}

instance : LE Instant := ⟨fun s t => ¬ t < s⟩

instance : DecidableLE Instant := fun s t => inferInstanceAs (Decidable (¬ t < s))

/-- Not later than: by second, then by nanosecond. -/
theorem Instant.le_iff :
    s ≤ t ↔ s.seconds < t.seconds ∨ (s.seconds = t.seconds ∧ s.nanos ≤ t.nanos) := by
  show ¬ t < s ↔ _
  rw [Instant.lt_iff]
  omega

theorem Instant.lt_of_lt_of_le (hst : s < t) (htu : t ≤ u) : s < u := by
  rw [Instant.lt_iff] at hst ⊢
  rw [Instant.le_iff] at htu
  omega

theorem Instant.le_trans (hst : s ≤ t) (htu : t ≤ u) : s ≤ u := by
  rw [Instant.le_iff] at *
  omega

/-- An instant is not before another exactly if the other is not later. -/
theorem Instant.not_lt : ¬ s < t ↔ t ≤ s := Iff.rfl

end instants

/-! ## §2. Samples with a time in a window -/

/-- Whether a sample has a time, and that is in the window from `start`, inclusive, to `stop`,
exclusive. -/
def Sample.IsIn (start stop : Instant) (x : Sample Float) : Prop :=
  ∃ t ∈ x.timestamp, start ≤ t ∧ t < stop

/-- Whether a sample has a time, and that is before an instant. -/
def Sample.IsBefore (b : Instant) (x : Sample Float) : Prop :=
  ∃ t ∈ x.timestamp, t < b

instance (start stop : Instant) (x : Sample Float) : Decidable (x.IsIn start stop) :=
  inferInstanceAs (Decidable (∃ t ∈ x.timestamp, start ≤ t ∧ t < stop))

instance (b : Instant) (x : Sample Float) : Decidable (x.IsBefore b) :=
  inferInstanceAs (Decidable (∃ t ∈ x.timestamp, t < b))

/-- The query, for the samples from `start`, inclusive, to `stop`, exclusive. -/
def CandidateQuery.during (q : CandidateQuery Float) (start stop : Instant) :
    CandidateQuery Float :=
  { q with window := some ⟨start, stop⟩ }

variable {a b c : Instant} {x : Sample Float}

theorem isWithin_iff : Store.isWithin (some ⟨a, b⟩) x = true ↔ x.IsIn a b := by
  unfold Store.isWithin Sample.IsIn
  cases x.timestamp with
  | none => simp
  | some t =>
    simp only [TimeWindow.contains, Bool.and_eq_true, Bool.not_eq_true', decide_eq_false_iff_not,
      decide_eq_true_eq, Option.mem_some_iff, exists_eq_left', Instant.not_lt]

/-- Without a time a sample is in no window. -/
theorem Sample.not_isIn_of_untimed (h : x.timestamp = none) : ¬ x.IsIn a b := by
  rintro ⟨t, ht, -⟩
  rw [h] at ht
  cases ht

/-- The first of two adjacent windows has what is before the instant between them, -/
theorem Sample.isIn_first_iff (hbc : b ≤ c) : x.IsIn a b ↔ x.IsBefore b ∧ x.IsIn a c := by
  constructor
  · rintro ⟨t, ht, hstart, hstop⟩
    exact ⟨⟨t, ht, hstop⟩, t, ht, hstart, Instant.lt_of_lt_of_le hstop hbc⟩
  · rintro ⟨⟨t, ht, hbefore⟩, t', ht', hstart, -⟩
    -- A sample has one time, so both facts are about that.
    cases Option.mem_unique ht ht'
    exact ⟨t, ht, hstart, hbefore⟩

/-- and the second has what is not. -/
theorem Sample.isIn_second_iff (hab : a ≤ b) : x.IsIn b c ↔ ¬ x.IsBefore b ∧ x.IsIn a c := by
  constructor
  · rintro ⟨t, ht, hstart, hstop⟩
    refine ⟨?_, t, ht, Instant.le_trans hab hstart, hstop⟩
    rintro ⟨t', ht', hbefore⟩
    cases Option.mem_unique ht ht'
    exact Instant.not_lt.mpr hstart hbefore
  · rintro ⟨hnot, t, ht, -, hstop⟩
    have hstart : b ≤ t := Instant.not_lt.mp fun hbefore => hnot ⟨t, ht, hbefore⟩
    exact ⟨t, ht, hstart, hstop⟩

/-! ## §3. Adjacent windows -/

/-- The rows of the windows `[a, c)`, `[a, b)` and `[b, c)` among those that are stored. -/
structure IsSplitAt (a b c : Instant) (stored whole first second : List (Sample Float)) :
    Prop where
  whole_rows : whole = stored.filter (·.IsIn a c)
  first_rows : first = stored.filter (·.IsIn a b)
  second_rows : second = stored.filter (·.IsIn b c)
  /-- One by one, the rows go to the first window or to the second. -/
  partition : whole.partition (·.IsBefore b) = (first, second)
  /-- So none is lost, none is doubled, -/
  perm : (first ++ second).Perm whole
  /-- and none is in both. -/
  disjoint : ∀ x ∈ first, x ∉ second
  /-- Rows are given in the order in which they are stored. -/
  sublists : whole.Sublist stored ∧ first.Sublist stored ∧ second.Sublist stored

/-- The stored rows in three windows, two of which make up the other. -/
theorem isSplitAt_filter (hab : a ≤ b) (hbc : b ≤ c) (stored : List (Sample Float)) :
    IsSplitAt a b c stored (stored.filter (·.IsIn a c)) (stored.filter (·.IsIn a b))
      (stored.filter (·.IsIn b c)) := by
  have hfirst : stored.filter (·.IsIn a b)
      = (stored.filter (·.IsIn a c)).filter (·.IsBefore b) := by
    rw [List.filter_filter]
    apply List.filter_congr
    intro x _
    simp [Sample.isIn_first_iff hbc]
  have hsecond : stored.filter (·.IsIn b c)
      = (stored.filter (·.IsIn a c)).filter (fun x => !decide (x.IsBefore b)) := by
    rw [List.filter_filter]
    apply List.filter_congr
    intro x _
    simp [Sample.isIn_second_iff hab]
  -- Both windows are cut from the one that is made of them, by the same test.
  refine ⟨rfl, rfl, rfl, ?_, ?_, ?_, ?_⟩
  · rw [List.partition_eq_filter_filter, hfirst, hsecond]
    rfl
  · rw [hfirst, hsecond]
    exact List.filter_append_perm _ _
  · intro x hx hx'
    have hbefore := ((Sample.isIn_first_iff hbc).mp (of_decide_eq_true (List.mem_filter.mp hx).2)).1
    have hnot := ((Sample.isIn_second_iff hab).mp (of_decide_eq_true (List.mem_filter.mp hx').2)).1
    exact hnot hbefore
  · exact ⟨List.filter_sublist, List.filter_sublist, List.filter_sublist⟩

/-! ## §4. What a store answers -/

/-- How a store that holds some rows of an experiment answers for the window `[a, c)` and for
the two that it is made of. -/
structure Store.AnswersAdjacent (s : Store) (q : CandidateQuery Float) (a b c : Instant)
    (stored : List (Sample Float)) : Prop where
  /-- With the flags that rows have, the two windows share out the rows of the one. -/
  split : ∃ whole first second,
    (s.withRecompute false).candidates (q.during a c) = .ok whole ∧
    (s.withRecompute false).candidates (q.during a b) = .ok first ∧
    (s.withRecompute false).candidates (q.during b c) = .ok second ∧
    IsSplitAt a b c stored whole first second
  /-- A row without a time is in no window, -/
  untimed : ∀ start stop rows x,
    (s.withRecompute false).candidates (q.during start stop) = .ok rows →
      x.timestamp = none → x ∉ rows
  /-- but without a window all rows are given. -/
  no_window : (s.withRecompute false).candidates { q with window := none } = .ok stored
  /-- If flags are decided anew, then those of the rows that are given otherwise. -/
  recomputed : ∀ window, ∃ rows marked,
    (s.withRecompute false).candidates { q with window := window } = .ok rows ∧
    (s.withRecompute true).candidates { q with window := window } = .ok marked ∧
    marked = markCandidates { q with window := window } rows ∧
    IsMarking { q with window := window } rows marked

section answers

variable {s : Store} {q : CandidateQuery Float}

theorem candidates_during (hknown : s.samples.get? q.experiment ≠ none) (start stop : Instant) :
    (s.withRecompute false).candidates (q.during start stop) =
      .ok ((s.samplesOf q.experiment).filter (·.IsIn start stop)) := by
  rw [candidates_withRecompute_false (q := q.during start stop) hknown]
  congr 1
  apply List.filter_congr
  intro x _
  rw [Bool.eq_iff_iff, decide_eq_true_iff]
  exact isWithin_iff

theorem Store.answersAdjacent (hknown : s.samples.get? q.experiment ≠ none) (hab : a ≤ b)
    (hbc : b ≤ c) : s.AnswersAdjacent q a b c (s.samplesOf q.experiment) where
  split := ⟨_, _, _, candidates_during hknown a c, candidates_during hknown a b,
    candidates_during hknown b c, isSplitAt_filter hab hbc _⟩
  untimed := by
    intro start stop rows x hrows huntimed hx
    rw [candidates_during hknown] at hrows
    cases hrows
    exact Sample.not_isIn_of_untimed huntimed (of_decide_eq_true (List.mem_filter.mp hx).2)
  no_window := by
    rw [candidates_withRecompute_false (q := { q with window := none }) hknown]
    congr 1
    exact List.filter_eq_self.mpr fun _ _ => rfl
  recomputed := by
    intro window
    -- The window is applied before flags are decided, so both answers are made from its rows.
    exact ⟨_, _, candidates_withRecompute_false (q := { q with window := window }) hknown,
      candidates_withRecompute_true (q := { q with window := window }) hknown, rfl,
      isMarking_markCandidates _ _⟩

end answers

/-- Two adjacent windows share out the rows of the window made of both. That is so in the store
of every history, for every experiment that it knows, and of the rows that the history added. -/
theorem adjacent_windows_partition (history : List StoreStep) (q : CandidateQuery Float)
    (hknown : (Store.after history).samples.get? q.experiment ≠ none) {a b c : Instant}
    (hab : a ≤ b) (hbc : b ≤ c) :
    (Store.after history).AnswersAdjacent q a b c
      ((logOf history).samples.filter (·.experiment = q.experiment)) := by
  rw [← (holds_after history).buckets]
  exact Store.answersAdjacent hknown hab hbc

/-- The second of the year 2016 that a leap second followed. -/
def beforeLeap : Instant := .ofSeconds 1483228799 (by decide)

/-- The start of that leap second. -/
def leapStart : Instant := ⟨1483228799, 1000000000, by decide, by decide⟩

/-- The end of the first minute of the year 2017. -/
def afterLeap : Instant := .ofSeconds 1483228860 (by decide)

/-- Samples around a leap second: within it, without a time, at the start of the second before
it, at its own start, at the last moment before it, and a minute after it. -/
def leapHistory : List StoreStep :=
  [.withRecompute true, .addExperiment ⟨1, "exp1"⟩,
    .addSample { sampleAt 4 1 1.5 with
      timestamp := some ⟨1483228799, 1250000000, by decide, by decide⟩ },
    .addSample (sampleAt 6 1 1.5),
    .addSample { sampleAt 1 1 1.5 with timestamp := some beforeLeap },
    .addSample { sampleAt 3 1 0.5 with timestamp := some leapStart },
    .addSample { sampleAt 2 1 0.5 with
      timestamp := some ⟨1483228799, 999999999, by decide, by decide⟩ },
    .addSample { sampleAt 5 1 1.5 with timestamp := some afterLeap }]

/-- A query that all samples of `leapHistory` pass. Each is the only one of its link, so it is
below the cut if its output gap is longer than its input gap. -/
def leapQuery : CandidateQuery Float where
  experiment := 1
  maxCapacity := 3
  packetSize := 1
  minConfidence := 1

/-- Four of the samples are in the window that is made of two, and each is in one of those. -/
theorem adjacent_windows_around_leapStart :
    (Store.after leapHistory).samples.get? leapQuery.experiment ≠ none ∧
      beforeLeap ≤ leapStart ∧ leapStart ≤ afterLeap ∧
      (Store.after leapHistory).AnswersAdjacent leapQuery beforeLeap leapStart afterLeap
        ((logOf leapHistory).samples.filter (·.experiment = 1)) ∧
      [(beforeLeap, afterLeap), (beforeLeap, leapStart), (leapStart, afterLeap)].map (fun w =>
        (((Store.after leapHistory).withRecompute false).candidates
          (leapQuery.during w.1 w.2)).toOption.map (·.map (·.link)))
        = [some [4, 1, 3, 2], some [1, 2], some [4, 3]] ∧
      (((Store.after leapHistory).candidates
          (leapQuery.during beforeLeap afterLeap)).toOption.map (·.map (·.used)))
        = some [true, true, false, false] := by
  have hknown : (Store.after leapHistory).samples.get? leapQuery.experiment ≠ none := by
    decide +kernel
  have hfirst : beforeLeap ≤ leapStart := by decide
  have hsecond : leapStart ≤ afterLeap := by decide
  refine ⟨hknown, hfirst, hsecond, ?_, by decide +kernel, by decide +kernel⟩
  exact adjacent_windows_partition leapHistory leapQuery hknown hfirst hsecond

end ProbeGap
