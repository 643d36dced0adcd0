import ProbeGap.Proofs.Fallible
import ProbeGap.Proofs.Json.Reread
import ProbeGap.Proofs.Store.Snapshot
import ProbeGap.Store.Opening

/-!
# JSON dumps are read back

A dump in JSON gives back its experiments and, of its samples, those whose numbers are all
finite. A number that is not finite is written as null, so its row is no sample when it is
read, and the reader passes over it; no other row is changed by that. What is kept of a
sample is exact but for its numbers and its time, which come back as what their texts are read
as (`rereadFloat?`, `Instant.carried`).

One number whose text is refused spoils the whole file, as it is no JSON value then. So the
texts of all finite numbers have to be readable, also those in rows that are dropped.

## Contents

  * `Sample.reread?`: what a written sample is read as.
  * `exists_row`, `isReadable_of_row`: one row, and when it is not refused.
  * `dumps_are_read_back`: the file of a dump.
-/

namespace ProbeGap

/-! ## §1. Samples read again -/

/-- The gaps and the length of a sample. -/
def Sample.numbers (s : Sample Float) : List Float :=
  [s.gin, s.gout, s.length]

/-- Whether all numbers of a sample are finite. -/
def Sample.isFinite (s : Sample Float) : Bool :=
  s.numbers.all (·.isFinite)

/-- A sample with what the texts of its numbers and of its time are read as. -/
def Sample.reread? (s : Sample Float) : Option (Sample Float) := do
  let gin ← rereadFloat? s.gin
  let gout ← rereadFloat? s.gout
  let length ← rereadFloat? s.length
  return { s.carried with gin, gout, length }

/-- Whether the texts of all finite numbers of a sample are read as numbers. -/
def Sample.IsReadable (s : Sample Float) : Prop :=
  ∀ x ∈ s.numbers, x.isFinite = true → (rereadFloat? x).isSome = true

/-! ## §2. Rows -/

theorem uint64?_ofUInt64 (n : UInt64) : (Json.ofUInt64 n).uint64? = some n := by
  have hlimit : n.toNat < countLimit := n.toNat_lt
  have hrange : 0 ≤ (n.toNat : Int) ∧ (n.toNat : Int) < (countLimit : Nat) :=
    ⟨by omega, by omega⟩
  show (if 0 ≤ (n.toNat : Int) ∧ (n.toNat : Int) < (countLimit : Nat) then
    some (UInt64.ofNat (n.toNat : Int).toNat) else none) = some n
  rw [if_pos hrange, Int.toNat_natCast, UInt64.ofNat_toNat]

/-- The field of an identifier, in the form in which the readers of rows ask for it. -/
theorem bind_uint64?_ofUInt64 (n : UInt64) :
    (some (Json.ofUInt64 n)).bind (·.uint64?) = some n := by
  rw [Option.bind_some, uint64?_ofUInt64]

/-- A time as a value. -/
def timeJson : Option Instant → Json
  | some t => .string t.text
  | none => .null

/-- The row of a sample with other values in the place of its numbers. -/
def Sample.rowWith (s : Sample Float) (gin gout length : Json) : Json :=
  .object
    [("link_state_id", .ofUInt64 s.link),
     ("experiment_id", .ofUInt64 s.experiment),
     ("gin", gin),
     ("gout", gout),
     ("len", length),
     ("used_in_regression", .bool s.used),
     ("timestamp", timeJson s.timestamp)]

theorem Sample.toJson_eq_rowWith (s : Sample Float) :
    s.toJson = s.rowWith (.ofFloat s.gin) (.ofFloat s.gout) (.ofFloat s.length) :=
  rfl

theorem timeOfJson?_timeJson (time : Option Instant) :
    timeOfJson? (some (timeJson time)) = some (time.map Instant.carried) := by
  cases time with
  | none => rfl
  | some t => simp [timeOfJson?, timeJson]

/-- A row with the fields of a sample, once those that are no numbers are read. -/
theorem ofJson?_of_fields {row gin gout length : Json} {link experiment used time : Option Json}
    (h : row.fields? sampleFields 5
      = some [link, experiment, some gin, some gout, some length, used, time])
    {s : Sample Float} (hlink : link.bind (·.uint64?) = some s.link)
    (hexperiment : experiment.bind (·.uint64?) = some s.experiment)
    (hused : flagOfJson? used = some s.used) (htime : timeOfJson? time = some s.timestamp) :
    Sample.ofJson? row = (do
      let gin ← gin.float?
      let gout ← gout.float?
      let length ← length.float?
      return { s with gin, gout, length }) := by
  rw [Sample.ofJson?, h]
  simp only [hlink, hexperiment, hused, htime, Option.bind_eq_bind, Option.bind_some]

/-- What a row is read as depends on its numbers alone. -/
theorem ofJson?_rowWith (s : Sample Float) (gin gout length : Json) :
    Sample.ofJson? (s.rowWith gin gout length) = (do
      let gin ← gin.float?
      let gout ← gout.float?
      let length ← length.float?
      return { s.carried with gin, gout, length }) := by
  have hfields : (s.rowWith gin gout length).fields? sampleFields 5
      = some [some (.ofUInt64 s.link), some (.ofUInt64 s.experiment), some gin, some gout,
          some length, some (.bool s.used), some (timeJson s.timestamp)] := rfl
  exact ofJson?_of_fields (s := s.carried) hfields (bind_uint64?_ofUInt64 s.link)
    (bind_uint64?_ofUInt64 s.experiment) rfl (timeOfJson?_timeJson s.timestamp)

theorem reread?_ofUInt64 (n : UInt64) (room : Nat) :
    (Json.ofUInt64 n).reread? room = some (.ofUInt64 n) :=
  read?_whole n.toNat_lt

theorem reread?_timeJson (time : Option Instant) (room : Nat) :
    (timeJson time).reread? room = some (timeJson time) := by
  cases time <;> rfl

/-- A row comes back with what its numbers come back as. -/
theorem reread?_rowWith (s : Sample Float) (gin gout length : Json) (room : Nat) :
    (s.rowWith gin gout length).reread? (room + 1) = (do
      let gin ← gin.reread? room
      let gout ← gout.reread? room
      let length ← length.reread? room
      return s.rowWith gin gout length) := by
  simp only [Sample.rowWith, Json.reread?, rereadMembers?, reread?_ofUInt64, reread?_timeJson]
  cases gin.reread? room with
  | none => rfl
  | some gin =>
    cases gout.reread? room with
    | none => rfl
    | some gout =>
      cases length.reread? room with
      | none => rfl
      | some length => rfl

theorem rereadFloat?_eq_none {x : Float} (hx : x.isFinite = false) : rereadFloat? x = none := by
  unfold rereadFloat?
  rw [dataText?_eq_none hx]
  rfl

/-- A number that is finite has to be readable to come back at all; another one is null. -/
theorem exists_read?_float {x : Float}
    (hx : x.isFinite = true → (rereadFloat? x).isSome = true) :
    ∃ j, Json.read? (JsonNumber.float x).written = some j ∧ j.float? = rereadFloat? x := by
  cases hfinite : x.isFinite with
  | true =>
    rcases read?_float_of_isFinite hfinite with ⟨hnone, -⟩ | ⟨j, hj, hfloat, -⟩
    · have hsome := hx hfinite
      rw [hnone] at hsome
      cases hsome
    · exact ⟨j, hj, hfloat⟩
  | false =>
    refine ⟨.null, read?_float_of_not_isFinite hfinite, ?_⟩
    rw [rereadFloat?_eq_none hfinite]
    rfl

/-- The row of a readable sample is read as what the sample is read as. -/
theorem exists_row {s : Sample Float} (hs : s.IsReadable) (room : Nat) :
    ∃ row, s.toJson.reread? (room + 1) = some row ∧ Sample.ofJson? row = s.reread? := by
  obtain ⟨gin, hgin, hginFloat⟩ := exists_read?_float (hs s.gin (by simp [Sample.numbers]))
  obtain ⟨gout, hgout, hgoutFloat⟩ := exists_read?_float (hs s.gout (by simp [Sample.numbers]))
  obtain ⟨length, hlength, hlengthFloat⟩ :=
    exists_read?_float (hs s.length (by simp [Sample.numbers]))
  refine ⟨s.rowWith gin gout length, ?_, ?_⟩
  · rw [s.toJson_eq_rowWith, reread?_rowWith]
    simp only [Json.ofFloat, Json.reread?, hgin, hgout, hlength]
    rfl
  · rw [ofJson?_rowWith, hginFloat, hgoutFloat, hlengthFloat]
    rfl

/-- The row of a sample is refused if the text of one of its numbers is. -/
theorem isReadable_of_row {s : Sample Float} {room : Nat} {row : Json}
    (h : s.toJson.reread? (room + 1) = some row) : s.IsReadable := by
  rw [s.toJson_eq_rowWith, reread?_rowWith] at h
  simp only [Option.bind_eq_bind, Option.bind_eq_some_iff] at h
  obtain ⟨gin, hgin, gout, hgout, length, hlength, -⟩ := h
  have hnumbers : ∀ x ∈ s.numbers, ∃ j, Json.read? (JsonNumber.float x).written = some j := by
    intro x hx
    simp only [Sample.numbers, List.mem_cons, List.not_mem_nil, or_false] at hx
    rcases hx with rfl | rfl | rfl
    · exact ⟨gin, hgin⟩
    · exact ⟨gout, hgout⟩
    · exact ⟨length, hlength⟩
  intro x hx hfinite
  obtain ⟨j, hj⟩ := hnumbers x hx
  rcases read?_float_of_isFinite hfinite with ⟨-, hnone⟩ | ⟨-, -, -, hsome⟩
  · rw [hj] at hnone
    cases hnone
  · exact hsome

/-- A sample is read again exactly if its numbers are finite. -/
theorem isSome_reread? {s : Sample Float} (hs : s.IsReadable) :
    s.reread?.isSome = s.isFinite := by
  have hnumber : ∀ x ∈ s.numbers, (rereadFloat? x).isSome = x.isFinite := by
    intro x hx
    cases hfinite : x.isFinite with
    | true => exact hs x hx hfinite
    | false =>
      rw [rereadFloat?_eq_none hfinite]
      rfl
  have hgin := hnumber s.gin (by simp [Sample.numbers])
  have hgout := hnumber s.gout (by simp [Sample.numbers])
  have hlength := hnumber s.length (by simp [Sample.numbers])
  simp only [Sample.isFinite, Sample.numbers, List.all_cons, List.all_nil, Bool.and_true,
    ← hgin, ← hgout, ← hlength]
  unfold Sample.reread?
  cases rereadFloat? s.gin with
  | none => rfl
  | some gin =>
    cases rereadFloat? s.gout with
    | none => rfl
    | some gout => cases rereadFloat? s.length <;> rfl

/-! ## §3. Lists of rows -/

/-- The rows of readable samples come back; those that are samples are the finite ones. -/
theorem exists_rows {samples : List (Sample Float)} (h : ∀ s ∈ samples, s.IsReadable)
    (room : Nat) :
    ∃ rows kept, rereadItems? (room + 1) (samples.map (·.toJson)) = some rows ∧
      (samples.filter Sample.isFinite).mapM Sample.reread? = some kept ∧
      rows.filterMap Sample.ofJson? = kept := by
  induction samples with
  | nil => exact ⟨[], [], rfl, rfl, rfl⟩
  | cons s samples ih =>
    obtain ⟨rows, kept, hrows, hkept, hread⟩ :=
      ih fun t ht => h t (List.mem_cons_of_mem s ht)
    obtain ⟨row, hrow, hsample⟩ := exists_row (h s List.mem_cons_self) room
    have hfinite := isSome_reread? (h s List.mem_cons_self)
    have hitems : rereadItems? (room + 1) ((s :: samples).map (·.toJson))
        = some (row :: rows) := by
      rw [List.map_cons, rereadItems?, hrow, hrows]
      rfl
    cases hreread : s.reread? with
    | none =>
      -- The row stays in the list of values, but neither side has a sample for it.
      rw [hreread] at hsample hfinite
      refine ⟨row :: rows, kept, hitems, ?_, ?_⟩
      · rw [List.filter_cons_of_neg (by simp [← hfinite]), hkept]
      · rw [List.filterMap_cons_none hsample, hread]
    | some t =>
      rw [hreread] at hsample hfinite
      refine ⟨row :: rows, t :: kept, hitems, ?_, ?_⟩
      · rw [List.filter_cons_of_pos (by simp [← hfinite]), List.mapM_cons, hreread, hkept]
        rfl
      · rw [List.filterMap_cons_some hsample, hread]

/-- One number whose text is refused spoils the list. -/
theorem isReadable_of_rows {samples : List (Sample Float)} {room : Nat} {rows : List Json}
    (h : rereadItems? (room + 1) (samples.map (·.toJson)) = some rows) :
    ∀ s ∈ samples, s.IsReadable := by
  induction samples generalizing rows with
  | nil =>
    intro s hs
    cases hs
  | cons s samples ih =>
    rw [List.map_cons, rereadItems?] at h
    cases hrow : s.toJson.reread? (room + 1) with
    | none =>
      rw [hrow] at h
      cases h
    | some row =>
      rw [hrow] at h
      obtain ⟨rest, hrest, -⟩ := Option.map_eq_some_iff.mp h
      intro t ht
      rcases List.mem_cons.mp ht with rfl | ht
      · exact isReadable_of_row hrow
      · exact ih hrest t ht

theorem reread?_info (e : ExperimentInfo) (room : Nat) :
    e.toJson.reread? (room + 1) = some e.toJson := by
  simp only [ExperimentInfo.toJson, Json.reread?, rereadMembers?, reread?_ofUInt64,
    Option.map_some]

theorem ofJson?_info (e : ExperimentInfo) : ExperimentInfo.ofJson? e.toJson = some e := by
  have hfields : e.toJson.fields? ["id", "name"] 2
      = some [some (.ofUInt64 e.id), some (.string e.name)] := rfl
  rw [ExperimentInfo.ofJson?, hfields]
  simp only [bind_uint64?_ofUInt64]
  rfl

/-- The table of experiments comes back as it is. -/
theorem rereadItems?_infos (experiments : List ExperimentInfo) (room : Nat) :
    rereadItems? (room + 1) (experiments.map (·.toJson))
      = some (experiments.map (·.toJson)) := by
  induction experiments with
  | nil => rfl
  | cons e experiments ih =>
    rw [List.map_cons, rereadItems?, reread?_info, ih]
    rfl

theorem mapM_ofJson?_infos (experiments : List ExperimentInfo) :
    (experiments.map (·.toJson)).mapM ExperimentInfo.ofJson? = some experiments := by
  induction experiments with
  | nil => rfl
  | cons e experiments ih =>
    rw [List.map_cons, List.mapM_cons, ofJson?_info, ih]
    rfl

/-! ## §4. Files -/

/-- How many containers may be within a row, which stands in a list within an object. -/
def rowRoom : Nat := maxNesting - 3

/-- What the value of a dump comes back as, by what becomes of its rows. -/
theorem reread?_dump (d : Dump) :
    d.toJson.reread? maxNesting
      = (rereadItems? (rowRoom + 1) (d.samples.map (·.toJson))).map fun rows =>
          .object [("experiments", .array (d.experiments.map (·.toJson))),
            ("samples", .array rows)] := by
  have hroom : maxNesting = rowRoom + 1 + 1 + 1 := rfl
  simp only [Dump.toJson, hroom, Json.reread?, rereadMembers?]
  rw [rereadItems?_infos d.experiments rowRoom]
  simp only [Option.map_some]
  cases rereadItems? (rowRoom + 1) (d.samples.map (·.toJson)) <;> rfl

/-- A file is read as what the value of its dump comes back as. -/
theorem readDumpFile_dumpFile (d : Dump) (path : String) :
    readDumpFile path (.file (dumpFile d))
      = match rereadItems? (rowRoom + 1) (d.samples.map (·.toJson)) with
        | some rows => .ok ⟨d.experiments, rows.filterMap Sample.ofJson?⟩
        | none => .error (.dumpNotParsed path) := by
  have htext : Json.read? d.text.toList = d.toJson.reread? maxNesting := by
    rw [← Json.read?_pretty]
    exact congrArg Json.read? String.toList_ofList
  unfold readDumpFile dumpFile
  rw [PathContent.text?_file]
  simp only [Dump.parse, htext, reread?_dump]
  cases rereadItems? (rowRoom + 1) (d.samples.map (·.toJson)) with
  | none => rfl
  | some rows =>
    have hexperiments : experimentsOfJson? (some (.array (d.experiments.map (·.toJson))))
        = some d.experiments := mapM_ofJson?_infos d.experiments
    have hget : ∀ infos : Json, (Json.object [("experiments", infos),
        ("samples", .array rows)]).get? "experiments" = some infos := fun _ => rfl
    have hsamples : ∀ infos : Json, (Json.object [("experiments", infos),
        ("samples", .array rows)]).get? "samples" = some (.array rows) := fun _ => rfl
    simp only [Option.map_some, Dump.ofJson, hget, hsamples, hexperiments, samplesOfJson]

/-- A dump comes back from its file with all its experiments and the samples whose numbers are
finite, in order. A sample is kept as it is, but for its numbers, which become what their texts
are read as, and for a time whose text is that of another one, which becomes the other one. -/
theorem dumps_are_read_back (d : Dump)
    (h : ∀ s ∈ d.samples, ∀ x ∈ s.numbers, x.isFinite = true → (rereadFloat? x).isSome = true)
    (path : String) :
    ∃ kept, (d.samples.filter Sample.isFinite).mapM Sample.reread? = some kept ∧
      readDumpFile path (.file (dumpFile d)) = .ok ⟨d.experiments, kept⟩ := by
  obtain ⟨rows, kept, hrows, hkept, hread⟩ := exists_rows h rowRoom
  refine ⟨kept, hkept, ?_⟩
  rw [readDumpFile_dumpFile, hrows]
  simp only [hread]

/-- Of the dump at the ends of all ranges, the first and the third sample are kept. -/
theorem boundaryDump_kept :
    (∀ s ∈ boundaryDump.samples, ∀ x ∈ s.numbers, x.isFinite = true →
      (rereadFloat? x).isSome = true) ∧
    ∃ kept, (boundaryDump.samples.filter Sample.isFinite).mapM Sample.reread? = some kept ∧
      kept.map (·.link) = [18446744073709551615, 1] ∧
      readDumpFile "a.json" (.file (dumpFile boundaryDump))
        = .ok ⟨boundaryDump.experiments, kept⟩ := by
  have hreadable : ∀ s ∈ boundaryDump.samples, ∀ x ∈ s.numbers, x.isFinite = true →
      (rereadFloat? x).isSome = true := by
    decide +kernel
  obtain ⟨kept, hkept, hfile⟩ := dumps_are_read_back boundaryDump hreadable "a.json"
  refine ⟨hreadable, kept, hkept, ?_, hfile⟩
  have hlinks : ((boundaryDump.samples.filter Sample.isFinite).mapM Sample.reread?).map
      (fun kept => kept.map (·.link)) = some [18446744073709551615, 1] := by
    decide +kernel
  rw [hkept] at hlinks
  exact Option.some.inj hlinks

/-- The row of `strayDump` is kept, but with a time in the next second. -/
theorem strayDump_kept_later :
    (∀ s ∈ strayDump.samples, ∀ x ∈ s.numbers, x.isFinite = true →
      (rereadFloat? x).isSome = true) ∧
    ∃ kept, readDumpFile "a.json" (.file (dumpFile strayDump)) = .ok ⟨strayDump.experiments, kept⟩ ∧
      strayDump.samples.map (fun s => s.timestamp.map fun t => (t.seconds, t.nanos))
        = [some (1746093600, 1500000000)] ∧
      kept.map (fun s => s.timestamp.map fun t => (t.seconds, t.nanos))
        = [some (1746093601, 500000000)] := by
  have hfile : (readDumpFile "a.json" (.file (dumpFile strayDump))).toOption.map (fun d =>
      (d.experiments, d.samples.map fun s => s.timestamp.map fun t => (t.seconds, t.nanos)))
        = some (strayDump.experiments, [some (1746093601, 500000000)]) := by
    rw [readDumpFile_dumpFile]
    decide +kernel
  obtain ⟨⟨experiments, kept⟩, hread, hview⟩ := exists_ok_of_view hfile
  obtain ⟨rfl, hkept⟩ := Prod.mk.inj hview
  exact ⟨by decide +kernel, kept, hread, by decide, hkept⟩

end ProbeGap
