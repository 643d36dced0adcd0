import ProbeGap.Estimate.Experiment
import ProbeGap.Proofs.Estimate.Experiment
import ProbeGap.Proofs.Fallible
import ProbeGap.Proofs.Store.Cut
import ProbeGap.Store.Opening

/-!
# Dumps without flags

A dump of another tool may have no flags at all. Marking is meant for stores of such dumps, but
a store cannot tell them from others: a row without a flag is read as a sample that is not
used, and from then on looks like one that was left out on purpose. So unless the store is told
to decide the flags anew, none of its samples is ever used, and no link has an estimate.

A row lacks the flag if it is an object without that member, or an array that ends before it.

## Contents

  * `Json.LacksFlag`, `LacksFlags`: rows and texts without flags.
  * `not_used_of_lacksFlag`: what such a row is read as.
  * `Store.LeavesUnmarked`: what a store answers whose samples all came without flag.
  * `flagless_dump_is_left_unmarked`: a store opened from such a text does that.
-/

namespace ProbeGap

/-! ## §1. Rows without flags -/

/-- Whether the row of a sample does not say if the sample is used. -/
def Json.LacksFlag : Json → Prop
  | .object members => ∀ member ∈ members, member.1 ≠ "used_in_regression"
  | .array items => items.length ≤ 5
  | _ => True

instance : DecidablePred Json.LacksFlag
  | .object members => inferInstanceAs (Decidable (∀ m ∈ members, m.1 ≠ "used_in_regression"))
  | .array items => inferInstanceAs (Decidable (items.length ≤ 5))
  | .null | .bool _ | .number _ | .string _ => .isTrue trivial

/-- The rows of the samples in the value of a dump. -/
def Json.sampleRows (j : Json) : List Json :=
  match j.get? "samples" with
  | some (.array rows) => rows
  | _ => []

/-- Whether no row of a text says if its sample is used. -/
def LacksFlags (text : String) : Prop :=
  ∀ j ∈ Json.read? text.toList, ∀ row ∈ j.sampleRows, row.LacksFlag

instance (text : String) : Decidable (LacksFlags text) :=
  inferInstanceAs (Decidable (∀ j ∈ Json.read? text.toList, ∀ row ∈ j.sampleRows, row.LacksFlag))

theorem get?_object_eq_none {members : List (String × Json)} {name : String}
    (h : ∀ member ∈ members, member.1 ≠ name) : (Json.object members).get? name = none := by
  show members.reverse.lookup name = none
  rw [List.lookup_eq_none_iff]
  intro member hmember
  have hne := h member (List.mem_reverse.mp hmember)
  simp [Ne.symm hne]

/-- The field of the flag is empty. -/
theorem fields?_of_lacksFlag {row : Json} {link experiment gin gout length used time : Option Json}
    (hlacks : row.LacksFlag) (hfields : row.fields? sampleFields 5
      = some [link, experiment, gin, gout, length, used, time]) : used = none := by
  cases row with
  | null => cases hfields
  | bool b => cases hfields
  | number n => cases hfields
  | string s => cases hfields
  | object members =>
    have hused := get?_object_eq_none hlacks
    simp only [Json.fields?, sampleFields, List.map_cons, List.map_nil, Option.some.injEq,
      List.cons.injEq] at hfields
    obtain ⟨-, -, -, -, -, rfl, -⟩ := hfields
    exact hused
  | array items =>
    simp only [Json.fields?] at hfields
    by_cases hrange : 5 ≤ items.length ∧ items.length ≤ sampleFields.length
    · rw [if_pos hrange] at hfields
      -- A row has at least five items, so this one has five, and the rest is filled up.
      have hfive : items.length = 5 := Nat.le_antisymm hlacks hrange.1
      match items, hfive with
      | [a, b, c, d, e], _ =>
        obtain ⟨-, -, -, -, -, rfl, -⟩ : some a = link ∧ some b = experiment ∧ some c = gin ∧
            some d = gout ∧ some e = length ∧ none = used ∧ none = time := by
          simpa [padded, sampleFields] using hfields
        rfl
    · rw [if_neg hrange] at hfields
      cases hfields

/-- The flag of a sample is that of its row, and false if the row has none. -/
theorem flagOfJson?_of_ofJson? {row : Json} {s : Sample Float} (h : Sample.ofJson? row = some s) :
    ∃ link experiment gin gout length used time, row.fields? sampleFields 5
      = some [link, experiment, gin, gout, length, used, time] ∧
        flagOfJson? used = some s.used := by
  unfold Sample.ofJson? at h
  split at h
  · rename_i link experiment gin gout length used time hfields
    simp only [Option.bind_eq_bind, Option.bind_eq_some_iff] at h
    obtain ⟨_, -, _, -, _, -, _, -, _, -, flag, hflag, _, -, hs⟩ := h
    cases hs
    exact ⟨link, experiment, gin, gout, length, used, time, hfields, hflag⟩
  · cases h

/-- What is read from a row without flag is not used. -/
theorem not_used_of_lacksFlag {row : Json} {s : Sample Float} (hlacks : row.LacksFlag)
    (h : Sample.ofJson? row = some s) : s.used = false := by
  obtain ⟨link, experiment, gin, gout, length, used, time, hfields, hflag⟩ :=
    flagOfJson?_of_ofJson? h
  rw [fields?_of_lacksFlag hlacks hfields] at hflag
  exact (Option.some.inj hflag).symm

/-! ## §2. Texts without flags -/

theorem samplesOfJson_eq (j : Json) :
    samplesOfJson (j.get? "samples") = j.sampleRows.filterMap Sample.ofJson? := by
  unfold samplesOfJson Json.sampleRows
  split <;> simp_all

/-- The samples of a dump without flags are not used. -/
theorem not_used_of_parse {text : String} {dump : Dump} (hlacks : LacksFlags text)
    (h : Dump.parse text = .ok dump) : ∀ s ∈ dump.samples, s.used = false := by
  unfold Dump.parse at h
  cases hread : Json.read? text.toList with
  | none =>
    rw [hread] at h
    cases h
  | some j =>
    rw [hread] at h
    simp only [Dump.ofJson] at h
    split at h
    · cases h
      intro s hs
      rw [samplesOfJson_eq] at hs
      obtain ⟨row, hrow, hsample⟩ := List.mem_filterMap.mp hs
      exact not_used_of_lacksFlag (hlacks j hread row hrow) hsample
    · cases h

/-- A store that is opened from a file in JSON holds the dump that its text is read as. -/
theorem exists_parse_of_openStore [Codec] {path : String} {content : PathContent} {store : Store}
    (hpath : isSnapshotPath path = false) (h : openStore path content = .ok store) :
    ∃ text dump, content.text? = some text ∧ Dump.parse text = .ok dump ∧
      store = Store.ofDump dump := by
  unfold openStore readStoreFile readDumpFile at h
  rw [if_neg (by simp [hpath])] at h
  cases htext : content.text? with
  | none =>
    rw [htext] at h
    cases h
  | some text =>
    cases hparse : Dump.parse text with
    | error error =>
      simp only [htext, hparse] at h
      cases h
    | ok dump =>
      simp only [htext, hparse] at h
      cases h
      exact ⟨text, dump, rfl, hparse, rfl⟩

/-! ## §3. What such a store answers -/

/-- The samples that a query asks for, with the flags that they have. -/
def Store.windowed (s : Store) (q : CandidateQuery Float) : List (Sample Float) :=
  (s.samplesOf q.experiment).filter (Store.isWithin q.window)

/-- What a store answers in which no sample is used. -/
structure Store.LeavesUnmarked (s : Store) : Prop where
  /-- An experiment that is not known has no answer either way. -/
  unknown : ∀ q, s.samples.get? q.experiment = none → ∀ on,
    (s.withRecompute on).candidates q = .error (.unknownId q.experiment)
  /-- The flags are decided if the store is told to. -/
  recomputed : ∀ q, s.samples.get? q.experiment ≠ none →
    (s.withRecompute true).candidates q = .ok (markCandidates q (s.windowed q))
  /-- Otherwise the samples are given as they came, -/
  stored : ∀ q, s.samples.get? q.experiment ≠ none → s.candidates q = .ok (s.windowed q)
  /-- and they came without a flag that is set. -/
  unused : ∀ q, ∀ x ∈ s.windowed q, x.used = false
  /-- So the two agree exactly if no sample is below the cut of its link. -/
  agree_iff : ∀ q, s.samples.get? q.experiment ≠ none →
    (s.candidates q = .ok (markCandidates q (s.windowed q)) ↔
      ∀ x ∈ s.windowed q, ¬ IsCut q (s.windowed q) x)
  /-- No link has an estimate, whatever the experiment. -/
  no_links : ∀ config e name estimates,
    estimateExperiment s config e name = .ok estimates → estimates.links = []

/-- Samples that are not used have no rows. -/
theorem links_eq_nil_of_not_used {samples : List (Sample Float)}
    (h : ∀ x ∈ samples, x.used = false) (e : Estimator Float) (name : String)
    (id : ExperimentId) (capacity : Float) : (e.estimates name id capacity samples).links = [] := by
  rw [List.eq_nil_iff_forall_not_mem]
  intro r hr
  obtain ⟨link, hne, -⟩ := mem_links_iff.mp hr
  apply hne
  rw [usedSamplesOf_eq_filter, List.filter_eq_nil_iff]
  intro x hx
  simp [h x hx]

/-- Marking leaves a list as it is if no sample is used in it and none is below a cut. -/
theorem eq_markCandidates_iff {q : CandidateQuery Float} {xs : List (Sample Float)}
    (h : ∀ x ∈ xs, x.used = false) : xs = markCandidates q xs ↔ ∀ x ∈ xs, ¬ IsCut q xs x := by
  have hmarking := isMarking_markCandidates q xs
  constructor
  · intro heq x hx hcut
    rw [← heq] at hmarking
    have hused := (hmarking.used_iff x hx).mpr hcut
    rw [h x hx] at hused
    cases hused
  · intro hnone
    apply IsMarking.unique _ hmarking
    refine ⟨rfl, fun x hx => ?_⟩
    simp [h x hx, hnone x hx]

theorem known_of_candidates {s : Store} {q : CandidateQuery Float} {rows : List (Sample Float)}
    (h : s.candidates q = .ok rows) : s.samples.get? q.experiment ≠ none := by
  intro hunknown
  rw [candidates_of_unknown hunknown] at h
  cases h

/-- A store that takes flags as they are, and has no sample whose flag is set, marks none. -/
theorem Store.leavesUnmarked {s : Store} (hstored : s.recompute = false)
    (hunused : ∀ id, ∀ x ∈ s.samplesOf id, x.used = false) : s.LeavesUnmarked := by
  have hwindowed : ∀ q, ∀ x ∈ s.windowed q, x.used = false :=
    fun q x hx => hunused q.experiment x (List.mem_filter.mp hx).1
  have hanswer : ∀ q, s.samples.get? q.experiment ≠ none → s.candidates q = .ok (s.windowed q) := by
    intro q hknown
    rw [candidates_of_known hknown, Store.select_of_stored hstored]
    rfl
  refine ⟨fun q hunknown on => candidates_of_unknown hunknown, fun q hknown => ?_, hanswer,
    hwindowed, fun q hknown => ?_, fun config e name estimates hestimates => ?_⟩
  · exact candidates_withRecompute_true hknown
  · rw [hanswer q hknown, ← eq_markCandidates_iff (hwindowed q)]
    exact ⟨Except.ok.inj, congrArg Except.ok⟩
  · obtain ⟨profile, id, rows, -, -, hrows, rfl⟩ := estimateExperiment_eq_ok_iff.mp hestimates
    have hknown := known_of_candidates hrows
    rw [hanswer _ hknown] at hrows
    rw [← Except.ok.inj hrows]
    exact links_eq_nil_of_not_used (hwindowed _) e name id profile.physicalCapacity

/-- A store opened from a dump whose rows all lack the flag marks candidates only if it is told
to. Else it gives all samples of an experiment as they came, none of them used, and every
estimation is without links. -/
theorem flagless_dump_is_left_unmarked [Codec] {path text : String} {content : PathContent}
    {store : Store} (hpath : isSnapshotPath path = false) (htext : content.text? = some text)
    (hlacks : LacksFlags text) (hopen : openStore path content = .ok store) :
    store.LeavesUnmarked := by
  obtain ⟨text', dump, htext', hparse, rfl⟩ := exists_parse_of_openStore hpath hopen
  rw [htext] at htext'
  cases htext'
  have hunused := not_used_of_parse hlacks hparse
  apply Store.leavesUnmarked
  · exact recompute_ofDump dump
  · intro id x hx
    rw [(holds_ofDump dump).buckets id] at hx
    exact hunused x (List.mem_filter.mp hx).1

/-! ## §4. A dump of another tool -/

/-- A dump with one sample, whose row lacks the flag. -/
def foreignText : String :=
  "\x7b\"experiments\": [\x7b\"id\": 1, \"name\": \"exp1\"\x7d], \"samples\": [\x7b" ++
    "\"link_state_id\": 7, \"experiment_id\": 1, \"gin\": 0.002, \"gout\": 0.005, " ++
    "\"len\": 1362\x7d]\x7d"

theorem lacksFlags_foreignText : LacksFlags foreignText := by
  decide +kernel

/-- A query under which the sample of `foreignText` is below the cut of its link. -/
def foreignQuery : CandidateQuery Float where
  experiment := 1
  maxCapacity := 1250000
  packetSize := 1362
  minConfidence := 0.1

/-- The store of `foreignText` answers as stores of dumps without flags do. -/
theorem foreignText_is_left_unmarked :
    isSnapshotPath "a.json" = false ∧ LacksFlags foreignText ∧
      ∃ store, openStore "a.json" (.file foreignText.toUTF8) = .ok store ∧
        store.LeavesUnmarked := by
  have hpath : isSnapshotPath "a.json" = false := by decide +kernel
  have hknown : (openStore "a.json" (.file foreignText.toUTF8)).toOption.map
      (fun store => store.samples.contains 1) = some true := by decide +kernel
  obtain ⟨store, hopen, -⟩ := exists_ok_of_view hknown
  refine ⟨hpath, lacksFlags_foreignText, store, hopen, ?_⟩
  exact flagless_dump_is_left_unmarked hpath (PathContent.text?_file _) lacksFlags_foreignText hopen

/-- Its sample is a candidate, but is given as one only if the flags are decided anew. -/
theorem foreignText_hides_candidate :
    LacksFlags foreignText ∧
      (openStore "a.json" (.file foreignText.toUTF8)).toOption.map (fun store =>
        ((store.candidates foreignQuery).toOption.map (·.map (·.used)),
          (markCandidates foreignQuery (store.windowed foreignQuery)).map (·.used),
          ((store.withRecompute true).candidates foreignQuery).toOption.map (·.map (·.used))))
        = some (some [false], [true], some [true]) := by
  refine ⟨lacksFlags_foreignText, ?_⟩
  decide +kernel

end ProbeGap
