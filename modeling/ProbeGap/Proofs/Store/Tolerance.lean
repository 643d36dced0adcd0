import ProbeGap.Proofs.Json.Placing
import ProbeGap.Proofs.Store.DumpText
import ProbeGap.Proofs.Store.Flagless

/-!
# Rows that are no samples

A dump is loaded row by row. Which rows are samples is said without the reader (`IsSampleRow`):
what a row needs, what it may lack, and which values are right for each field. A row that is none
is passed over, and does not change what the others are read as. The table of experiments, if there
is one, has to be right (`IsExperimentTable`), and the text as a whole has to have a value.

The latter is where a row can spoil the load. Each row is a stretch of the text, and texts of any
other values may stand there instead, in any number: the load then gives the samples of those in
the same place, and fails only if it failed before. But this holds up to a limit, that of the
reader of values. A row may have a value when it stands alone, and yet be nested deeper than there
is room for within the array and the object (`rowNesting`). The whole text then has no value, and
all other rows are lost with that one.

Main statement: `dumps_load_tolerantly`.
-/

namespace ProbeGap

/-! ## §1. Records -/

/-- A field of a record: in an object the last one with its name, in an array the one at its
place. -/
def Json.field? (row : Json) (place : Nat) (name : String) : Option Json :=
  match row with
  | .array items => items[place]?
  | row => row.get? name

/-- Whether a value is a record: an object, with whatever members, or an array with the required
fields and no more than `count`. -/
def Json.IsRecord (required count : Nat) : Json → Prop
  | .object _ => True
  | .array items => required ≤ items.length ∧ items.length ≤ count
  | _ => False

theorem padded_eq_mapIdx {items : List Json} {names : List String}
    (h : items.length ≤ names.length) :
    padded names.length items = names.mapIdx fun place _ => items[place]? := by
  apply List.ext_getElem?
  intro i
  unfold padded
  rw [List.getElem?_mapIdx]
  rcases Nat.lt_or_ge i items.length with hi | hi
  · have hnames : i < names.length := Nat.lt_of_lt_of_le hi h
    rw [List.getElem?_append_left (by simpa using hi)]
    simp [hi, hnames]
  · rw [List.getElem?_append_right (by simpa using hi)]
    rcases Nat.lt_or_ge i names.length with hnames | hnames
    · have hplace : i - items.length < names.length - items.length := by omega
      simp [hi, hnames, hplace]
    · have hplace : ¬ i - items.length < names.length - items.length := by omega
      simp [hnames, hplace]

/-- The fields of a record, one by one. -/
theorem Json.fields?_eq_some_iff {names : List String} {required : Nat} {row : Json}
    {fields : List (Option Json)} :
    row.fields? names required = some fields ↔
      row.IsRecord required names.length ∧ fields = names.mapIdx row.field? := by
  cases row with
  | null | bool _ | number _ | string _ => simp [Json.fields?, Json.IsRecord]
  | object members =>
    have hnames : names.map (Json.object members).get?
        = names.mapIdx (Json.object members).field? := by
      apply List.ext_getElem?
      intro i
      rw [List.getElem?_map, List.getElem?_mapIdx]
      rfl
    simp [Json.fields?, Json.IsRecord, hnames, eq_comm]
  | array items =>
    unfold Json.fields? Json.IsRecord
    by_cases hlength : required ≤ items.length ∧ items.length ≤ names.length
    · have hplaces : padded names.length items = names.mapIdx (Json.array items).field? :=
        padded_eq_mapIdx hlength.2
      simp [hlength, hplaces, eq_comm]
    · simp [hlength]

/-- Whether a field is a whole number of 64 bits. -/
def IsWhole (field : Option Json) (n : UInt64) : Prop :=
  field = some (.number (.whole n.toNat))

/-- Whether a field is a number, whole or not. -/
def IsNumber (field : Option Json) (x : Float) : Prop :=
  ∃ n, field = some (.number n) ∧ n.toFloat = x

/-- Whether a field is a truth value, or is absent and means no. -/
def IsFlag (field : Option Json) (flag : Bool) : Prop :=
  field = some (.bool flag) ∨ (field = none ∧ flag = false)

/-- Whether a field is the text of an instant, or is absent or null and means none. -/
def IsTime (field : Option Json) (time : Option Instant) : Prop :=
  (∃ text t, field = some (.string text) ∧ Instant.ofText? text = some t ∧ time = some t) ∨
    ((field = none ∨ field = some .null) ∧ time = none)

section fields

variable {field : Option Json}

theorem bind_uint64?_eq_some_iff {n : UInt64} :
    field.bind (·.uint64?) = some n ↔ IsWhole field n := by
  unfold IsWhole
  constructor
  · intro h
    obtain ⟨j, rfl, hj⟩ := Option.bind_eq_some_iff.mp h
    cases j with
    | number value =>
      cases value with
      | whole value =>
        simp only [Json.uint64?, JsonNumber.toUInt64?] at hj
        split at hj
        · rename_i hrange
          cases hj
          have hvalue : value.toNat < countLimit := by omega
          rw [UInt64.toNat_ofNat_of_lt' hvalue, Int.toNat_of_nonneg hrange.1]
        · cases hj
      | float x => cases hj
    | null | bool _ | string _ | array _ | object _ => cases hj
  · intro h
    rw [h]
    exact bind_uint64?_ofUInt64 n

theorem bind_float?_eq_some_iff {x : Float} :
    field.bind (·.float?) = some x ↔ IsNumber field x := by
  unfold IsNumber
  constructor
  · intro h
    obtain ⟨j, rfl, hj⟩ := Option.bind_eq_some_iff.mp h
    cases j with
    | number n => exact ⟨n, rfl, Option.some.inj hj⟩
    | null | bool _ | string _ | array _ | object _ => cases hj
  · intro h
    obtain ⟨n, rfl, rfl⟩ := h
    rfl

theorem bind_text?_eq_some_iff {text : String} :
    field.bind (·.text?) = some text ↔ field = some (.string text) := by
  constructor
  · intro h
    obtain ⟨j, rfl, hj⟩ := Option.bind_eq_some_iff.mp h
    cases j with
    | string s => exact congrArg (fun s => some (Json.string s)) (Option.some.inj hj)
    | null | bool _ | number _ | array _ | object _ => cases hj
  · intro h
    rw [h]
    rfl

theorem flagOfJson?_eq_some_iff {flag : Bool} :
    flagOfJson? field = some flag ↔ IsFlag field flag := by
  unfold IsFlag flagOfJson?
  cases field with
  | none => simp [eq_comm]
  | some j => cases j <;> simp [Json.bool?]

theorem timeOfJson?_eq_some_iff {time : Option Instant} :
    timeOfJson? field = some time ↔ IsTime field time := by
  unfold IsTime timeOfJson?
  cases field with
  | none => simp [eq_comm]
  | some j =>
    cases j with
    | string text =>
      simp only [Option.map_eq_some_iff]
      constructor
      · intro h
        obtain ⟨t, ht, rfl⟩ := h
        exact .inl ⟨text, t, rfl, ht, rfl⟩
      · intro h
        rcases h with ⟨text', t, htext, ht, rfl⟩ | ⟨hnull | hnull, -⟩
        · cases htext
          exact ⟨t, ht, rfl⟩
        · cases hnull
        · cases hnull
    | null => simp [eq_comm]
    | bool _ | number _ | array _ | object _ => simp

end fields

/-! ## §2. Rows of samples and of experiments -/

/-- Whether a row is a sample, and which. -/
structure IsSampleRow (row : Json) (s : Sample Float) : Prop where
  record : row.IsRecord 5 7
  link : IsWhole (row.field? 0 "link_state_id") s.link
  experiment : IsWhole (row.field? 1 "experiment_id") s.experiment
  gin : IsNumber (row.field? 2 "gin") s.gin
  gout : IsNumber (row.field? 3 "gout") s.gout
  length : IsNumber (row.field? 4 "len") s.length
  used : IsFlag (row.field? 5 "used_in_regression") s.used
  timestamp : IsTime (row.field? 6 "timestamp") s.timestamp

/-- Whether a row is a named experiment, and which. -/
structure IsExperimentRow (row : Json) (e : ExperimentInfo) : Prop where
  record : row.IsRecord 2 2
  id : IsWhole (row.field? 0 "id") e.id
  name : row.field? 1 "name" = some (.string e.name)

/-- Whether a value is a table of experiments, and which. -/
def IsExperimentTable (table : Json) (experiments : List ExperimentInfo) : Prop :=
  ∃ rows, table = .array rows ∧ List.Forall₂ IsExperimentRow rows experiments

/-- The reader of a row decides whether it is a sample. -/
theorem Sample.ofJson?_eq_some_iff {row : Json} {s : Sample Float} :
    Sample.ofJson? row = some s ↔ IsSampleRow row s := by
  have hnames : sampleFields.mapIdx row.field? = [row.field? 0 "link_state_id",
      row.field? 1 "experiment_id", row.field? 2 "gin", row.field? 3 "gout", row.field? 4 "len",
      row.field? 5 "used_in_regression", row.field? 6 "timestamp"] := rfl
  have hfields : ∀ fields, row.fields? sampleFields 5 = some fields ↔
      row.IsRecord 5 7 ∧ fields = sampleFields.mapIdx row.field? :=
    fun _ => Json.fields?_eq_some_iff
  constructor
  · intro h
    unfold Sample.ofJson? at h
    split at h
    · rename_i hrow
      obtain ⟨hrecord, hall⟩ := (hfields _).mp hrow
      rw [hnames] at hall
      cases hall
      simp only [Option.bind_eq_bind, Option.bind_eq_some_iff] at h
      obtain ⟨_, hlink, _, hexperiment, _, hgin, _, hgout, _, hlength, _, hused, _, htime, hs⟩ := h
      cases hs
      exact
        { record := hrecord
          link := bind_uint64?_eq_some_iff.mp (Option.bind_eq_some_iff.mpr hlink)
          experiment := bind_uint64?_eq_some_iff.mp (Option.bind_eq_some_iff.mpr hexperiment)
          gin := bind_float?_eq_some_iff.mp (Option.bind_eq_some_iff.mpr hgin)
          gout := bind_float?_eq_some_iff.mp (Option.bind_eq_some_iff.mpr hgout)
          length := bind_float?_eq_some_iff.mp (Option.bind_eq_some_iff.mpr hlength)
          used := flagOfJson?_eq_some_iff.mp hused
          timestamp := timeOfJson?_eq_some_iff.mp htime }
    · cases h
  · intro h
    unfold Sample.ofJson?
    rw [(hfields _).mpr ⟨h.record, rfl⟩, hnames]
    simp only [bind_uint64?_eq_some_iff.mpr h.link, bind_uint64?_eq_some_iff.mpr h.experiment,
      bind_float?_eq_some_iff.mpr h.gin, bind_float?_eq_some_iff.mpr h.gout,
      bind_float?_eq_some_iff.mpr h.length, flagOfJson?_eq_some_iff.mpr h.used,
      timeOfJson?_eq_some_iff.mpr h.timestamp, Option.bind_eq_bind, Option.bind_some]
    rfl

theorem ExperimentInfo.ofJson?_eq_some_iff {row : Json} {e : ExperimentInfo} :
    ExperimentInfo.ofJson? row = some e ↔ IsExperimentRow row e := by
  have hfields : ∀ fields, row.fields? ["id", "name"] 2 = some fields ↔
      row.IsRecord 2 2 ∧ fields = [row.field? 0 "id", row.field? 1 "name"] :=
    fun _ => Json.fields?_eq_some_iff
  constructor
  · intro h
    unfold ExperimentInfo.ofJson? at h
    split at h
    · rename_i hrow
      obtain ⟨hrecord, hall⟩ := (hfields _).mp hrow
      cases hall
      simp only [Option.bind_eq_bind, Option.bind_eq_some_iff] at h
      obtain ⟨_, hid, _, hname, he⟩ := h
      cases he
      exact ⟨hrecord, bind_uint64?_eq_some_iff.mp (Option.bind_eq_some_iff.mpr hid),
        bind_text?_eq_some_iff.mp (Option.bind_eq_some_iff.mpr hname)⟩
    · cases h
  · intro h
    unfold ExperimentInfo.ofJson?
    rw [(hfields _).mpr ⟨h.record, rfl⟩]
    show (do
      return ({ id := ← (row.field? 0 "id").bind (·.uint64?)
                name := ← (row.field? 1 "name").bind (·.text?) } : ExperimentInfo)) = some e
    simp only [bind_uint64?_eq_some_iff.mpr h.id, bind_text?_eq_some_iff.mpr h.name,
      Option.bind_eq_bind, Option.bind_some]
    rfl

theorem experimentsOfJson?_eq_some_iff {table : Json} {experiments : List ExperimentInfo} :
    experimentsOfJson? (some table) = some experiments ↔ IsExperimentTable table experiments := by
  have hrows : ∀ rows : List Json, rows.mapM ExperimentInfo.ofJson? = some experiments ↔
      List.Forall₂ IsExperimentRow rows experiments := by
    intro rows
    rw [mapM_eq_some_iff, ← List.forall₂_eq_eq_eq, List.forall₂_map_left_iff,
      List.forall₂_map_right_iff]
    simp only [ExperimentInfo.ofJson?_eq_some_iff]
  unfold IsExperimentTable
  constructor
  · intro h
    obtain ⟨rows, hitems, hall⟩ := Option.bind_eq_some_iff.mp h
    cases table with
    | array rows =>
      cases hitems
      exact ⟨rows, rfl, (hrows rows).mp hall⟩
    | null | bool _ | number _ | string _ | object _ => cases hitems
  · intro h
    obtain ⟨rows, rfl, hall⟩ := h
    exact (hrows rows).mpr hall

/-! ## §3. What a text is loaded as -/

/-- The samples among rows, in their order. All other rows are passed over. -/
inductive AreSamplesAmong : List Json → List (Sample Float) → Prop
  | nil : AreSamplesAmong [] []
  | sample {row : Json} {s : Sample Float} {rows : List Json} {samples : List (Sample Float)}
      (hrow : IsSampleRow row s) (hrows : AreSamplesAmong rows samples) :
      AreSamplesAmong (row :: rows) (s :: samples)
  | passedOver {row : Json} {rows : List Json} {samples : List (Sample Float)}
      (hrow : ∀ s, ¬ IsSampleRow row s) (hrows : AreSamplesAmong rows samples) :
      AreSamplesAmong (row :: rows) samples

theorem areSamplesAmong_iff {rows : List Json} {samples : List (Sample Float)} :
    AreSamplesAmong rows samples ↔ rows.filterMap Sample.ofJson? = samples := by
  constructor
  · intro h
    induction h with
    | nil => rfl
    | sample hrow _ ih =>
      rw [List.filterMap_cons_some (Sample.ofJson?_eq_some_iff.mpr hrow), ih]
    | @passedOver row _ _ hrow _ ih =>
      have hnone : Sample.ofJson? row = none := by
        rw [Option.eq_none_iff_forall_ne_some]
        intro s hs
        exact hrow s (Sample.ofJson?_eq_some_iff.mp hs)
      rw [List.filterMap_cons_none hnone, ih]
  · intro h
    subst h
    induction rows with
    | nil => exact .nil
    | cons row rows ih =>
      cases hrow : Sample.ofJson? row with
      | none =>
        rw [List.filterMap_cons_none hrow]
        refine .passedOver (fun s hs => ?_) ih
        rw [Sample.ofJson?_eq_some_iff.mpr hs] at hrow
        cases hrow
      | some s =>
        rw [List.filterMap_cons_some hrow]
        exact .sample (Sample.ofJson?_eq_some_iff.mp hrow) ih

/-- Whether a dump has the contents of a value. -/
structure IsContentOf (j : Json) (dump : Dump) : Prop where
  table : ∀ table, j.get? "experiments" = some table → IsExperimentTable table dump.experiments
  no_table : j.get? "experiments" = none → dump.experiments = []
  samples : ∀ rows, j.get? "samples" = some (.array rows) → AreSamplesAmong rows dump.samples
  no_samples : (∀ rows, j.get? "samples" ≠ some (.array rows)) → dump.samples = []

theorem parse_of_read? {text : String} {j : Json} (h : Json.read? text.toList = some j) :
    Dump.parse text = Dump.ofJson j := by
  unfold Dump.parse
  rw [h]

theorem Dump.parse_ofList (text : List Char) :
    Dump.parse (.ofList text) = (Json.read? text).elim (.error .notJson) Dump.ofJson := by
  unfold Dump.parse
  rw [String.toList_ofList]
  cases Json.read? text <;> rfl

theorem samplesOfJson_eq_nil {field : Option Json} (h : ∀ rows, field ≠ some (.array rows)) :
    samplesOfJson field = [] := by
  unfold samplesOfJson
  split
  · rename_i rows
    exact absurd rfl (h rows)
  · rfl

theorem ofJson_eq_ok_iff {j : Json} {dump : Dump} :
    Dump.ofJson j = .ok dump ↔ IsContentOf j dump := by
  constructor
  · intro h
    unfold Dump.ofJson at h
    split at h
    · rename_i experiments hexperiments
      cases h
      refine ⟨?_, ?_, ?_, samplesOfJson_eq_nil⟩
      · intro table htable
        rw [htable] at hexperiments
        exact experimentsOfJson?_eq_some_iff.mp hexperiments
      · intro hnone
        rw [hnone] at hexperiments
        exact (Option.some.inj hexperiments).symm
      · intro rows hrows
        rw [hrows]
        exact areSamplesAmong_iff.mpr rfl
    · cases h
  · intro h
    have hexperiments : experimentsOfJson? (j.get? "experiments") = some dump.experiments := by
      cases htable : j.get? "experiments" with
      | none =>
        rw [h.no_table htable]
        rfl
      | some table => exact experimentsOfJson?_eq_some_iff.mpr (h.table table htable)
    have hsamples : samplesOfJson (j.get? "samples") = dump.samples := by
      by_cases hrows : ∃ rows, j.get? "samples" = some (.array rows)
      · obtain ⟨rows, hrows⟩ := hrows
        rw [hrows]
        exact areSamplesAmong_iff.mp (h.samples rows hrows)
      · have hnone : ∀ rows, j.get? "samples" ≠ some (.array rows) :=
          fun rows hrow => hrows ⟨rows, hrow⟩
        rw [samplesOfJson_eq_nil hnone, h.no_samples hnone]
    unfold Dump.ofJson
    rw [hexperiments, hsamples]

/-- A text that is loaded has a value, and gives the contents of that. -/
theorem parse_eq_ok_iff {text : String} {dump : Dump} :
    Dump.parse text = .ok dump ↔ ∃ j, Json.read? text.toList = some j ∧ IsContentOf j dump := by
  constructor
  · intro h
    cases hread : Json.read? text.toList with
    | none =>
      unfold Dump.parse at h
      rw [hread] at h
      cases h
    | some j =>
      rw [parse_of_read? hread] at h
      exact ⟨j, rfl, ofJson_eq_ok_iff.mp h⟩
  · intro h
    obtain ⟨j, hread, hcontent⟩ := h
    rw [parse_of_read? hread]
    exact ofJson_eq_ok_iff.mpr hcontent

/-! ## §4. Rows in a text -/

/-- How deep a row may be nested: it is within an array, and that within an object. -/
def rowNesting : Nat :=
  maxNesting - 2

theorem exists_members_of_get? {j value : Json} {name : String} (h : j.get? name = some value) :
    ∃ before after, j = .object (before ++ (name, value) :: after) ∧
      ∀ member ∈ after, member.1 ≠ name := by
  cases j with
  | object members =>
    obtain ⟨after, before, hmembers, hafter⟩ := List.lookup_eq_some_iff.mp h
    have hreverse : members.reverse = after ++ (name, value) :: before := hmembers
    have hsplit : members = before.reverse ++ (name, value) :: after.reverse := by
      rw [← List.reverse_reverse members, hreverse, List.reverse_append, List.reverse_cons,
        List.append_assoc, List.singleton_append]
    refine ⟨before.reverse, after.reverse, congrArg Json.object hsplit, ?_⟩
    intro member hmember
    have hne := hafter member (List.mem_reverse.mp hmember)
    exact (bne_iff_ne.mp hne).symm
  | null | bool _ | number _ | string _ | array _ => cases h

theorem get?_object_append {before after : List (String × Json)} {name : String} {value : Json}
    (h : ∀ member ∈ after, member.1 ≠ name) :
    (Json.object (before ++ (name, value) :: after)).get? name = some value := by
  have hafter : after.reverse.lookup name = none := get?_object_eq_none h
  show (before ++ (name, value) :: after).reverse.lookup name = some value
  simp [List.lookup_append, hafter]

/-- The value of a member does not matter to members with other names. -/
theorem get?_object_congr {before after : List (String × Json)} {name other : String}
    (value value' : Json) (h : other ≠ name) :
    (Json.object (before ++ (name, value) :: after)).get? other
      = (Json.object (before ++ (name, value') :: after)).get? other := by
  have hne : (other == name) = false := by simpa using h
  show (before ++ (name, value) :: after).reverse.lookup other
    = (before ++ (name, value') :: after).reverse.lookup other
  simp [List.lookup_append, List.lookup_cons, hne]

/-- A dump with other samples. -/
def Dump.withSamples (dump : Dump) (samples : List (Sample Float)) : Dump :=
  { dump with samples := samples }

/-- Where a text has rows, those of any other values may be placed. -/
theorem exists_placing_rows {text : String} {j : Json} {values : List Json}
    (hread : Json.read? text.toList = some j) (hvalues : j.get? "samples" = some (.array values)) :
    nestingOfItems values ≤ rowNesting ∧ ∃ head rows tail, AreValuesOf values rows ∧
      text.toList = head ++ (Brackets.content rows ++ tail) ∧
      ∀ others inserted, AreValuesOf others inserted →
        Dump.parse (.ofList (head ++ (Brackets.content inserted ++ tail))) =
          if nestingOfItems others ≤ rowNesting then
            (Dump.parse text).map (·.withSamples (others.filterMap Sample.ofJson?))
          else .error .notJson := by
  obtain ⟨before, after, rfl, hafter⟩ := exists_members_of_get? hvalues
  obtain ⟨hnesting, head, rows, tail, hrows, htext, hplace⟩ := Json.exists_placing hread
  refine ⟨hnesting, head, rows, tail, hrows, htext, ?_⟩
  intro others inserted hinserted
  have hplaced := hplace others inserted hinserted
  rw [Dump.parse_ofList]
  unfold rowNesting
  split
  · rename_i hroom
    rw [hplaced, if_pos hroom, Option.elim_some, parse_of_read? hread]
    unfold Dump.ofJson
    rw [get?_object_append hafter, get?_object_append hafter,
      get?_object_congr (.array others) (.array values) (by decide)]
    -- The table is looked up under another name, so it is the same as before.
    cases experimentsOfJson?
        ((Json.object (before ++ ("samples", .array values) :: after)).get? "experiments") with
    | none => rfl
    | some experiments => rfl
  · rename_i hdeep
    rw [hplaced, if_neg hdeep, Option.elim_none]

/-- How the rows of a text stand for themselves. -/
structure RowsStandAlone (text : String) (head : List Char) (rows : List (List Char))
    (tail : List Char) (values : List Json) : Prop where
  /-- They are stretches of the text, with commas between them, -/
  text_eq : text.toList = head ++ (Brackets.content rows ++ tail)
  /-- and each is a text for itself, of a value that is not nested too deep. -/
  values_read : AreValuesOf values rows ∧ nestingOfItems values ≤ rowNesting
  /-- Any of them may be removed, and the texts of any other values inserted in their place. Then
  the text is loaded if it was before, with the same experiments, and what the rows before and
  after give is as it was. Only with a row that is nested too deep the text as a whole has no value. -/
  exchange : ∀ before removed after, rows = before ++ (removed ++ after) →
    ∃ first old last,
      (∀ dump, Dump.parse text = .ok dump → dump.samples = first ++ (old ++ last)) ∧
      ∀ others inserted, AreValuesOf others inserted → ∃ new, AreSamplesAmong others new ∧
        Dump.parse (.ofList (head ++ (Brackets.content (before ++ (inserted ++ after)) ++ tail))) =
          if nestingOfItems others ≤ rowNesting then
            (Dump.parse text).map (·.withSamples (first ++ (new ++ last)))
          else .error .notJson

theorem nestingOfItems_append (items others : List Json) :
    nestingOfItems (items ++ others) = max (nestingOfItems items) (nestingOfItems others) := by
  induction items with
  | nil => simp [nestingOfItems]
  | cons item items ih => rw [List.cons_append, nestingOfItems, nestingOfItems, ih, Nat.max_assoc]

theorem exists_rowsStandAlone {text : String} {j : Json} {values : List Json}
    (hread : Json.read? text.toList = some j) (hvalues : j.get? "samples" = some (.array values)) :
    ∃ head rows tail, RowsStandAlone text head rows tail values := by
  obtain ⟨hnesting, head, rows, tail, hrows, htext, hplace⟩ := exists_placing_rows hread hvalues
  refine ⟨head, rows, tail, htext, ⟨hrows, hnesting⟩, ?_⟩
  intro before removed after hsplit
  rw [hsplit] at hrows
  obtain ⟨valuesBefore, _, hbefore, hmore, rfl⟩ := exists_append_of_forall₂ hrows.flip
  obtain ⟨valuesRemoved, valuesAfter, -, hafter, rfl⟩ := exists_append_of_forall₂ hmore
  refine ⟨valuesBefore.filterMap Sample.ofJson?, valuesRemoved.filterMap Sample.ofJson?,
    valuesAfter.filterMap Sample.ofJson?, ?_, ?_⟩
  · intro dump hdump
    rw [parse_of_read? hread] at hdump
    have hsamples := (ofJson_eq_ok_iff.mp hdump).samples _ hvalues
    rw [← areSamplesAmong_iff.mp hsamples, List.filterMap_append, List.filterMap_append]
  · intro others inserted hinserted
    refine ⟨others.filterMap Sample.ofJson?, areSamplesAmong_iff.mpr rfl, ?_⟩
    -- The rows that stay are not nested too deep, so the inserted ones decide.
    have hroom : nestingOfItems (valuesBefore ++ (others ++ valuesAfter)) ≤ rowNesting ↔
        nestingOfItems others ≤ rowNesting := by
      simp only [nestingOfItems_append] at hnesting ⊢
      omega
    rw [hplace _ _ (List.rel_append hbefore.flip (List.rel_append hinserted hafter.flip))]
    simp only [hroom, List.filterMap_append]

/-- How a text is loaded as a dump. -/
structure LoadsTolerantly (text : String) : Prop where
  /-- It is loaded exactly if it has a value, and in that a table of experiments that is right, if
  there is one. It does not matter what the rows are, nor whether there are any. -/
  loads_iff : (∃ dump, Dump.parse text = .ok dump) ↔
    ∃ j, Json.read? text.toList = some j ∧ ∀ table, j.get? "experiments" = some table →
      ∃ experiments, IsExperimentTable table experiments
  /-- What it gives are the contents of the value. Rows that are no samples are passed over. -/
  loaded_iff : ∀ dump, Dump.parse text = .ok dump ↔
    ∃ j, Json.read? text.toList = some j ∧ IsContentOf j dump
  /-- Rows are loaded for themselves, whatever they are. -/
  rows : ∀ j values, Json.read? text.toList = some j → j.get? "samples" = some (.array values) →
    ∃ head rows tail, RowsStandAlone text head rows tail values

/-- Every value with a right table of experiments, if it has one, is the value of some dump. -/
theorem exists_isContentOf_iff {j : Json} :
    (∃ dump, IsContentOf j dump) ↔ ∀ table, j.get? "experiments" = some table →
      ∃ experiments, IsExperimentTable table experiments := by
  constructor
  · intro h table htable
    obtain ⟨dump, hdump⟩ := h
    exact ⟨dump.experiments, hdump.table table htable⟩
  · intro h
    obtain ⟨experiments, hexperiments⟩ :
        ∃ experiments, experimentsOfJson? (j.get? "experiments") = some experiments := by
      cases htable : j.get? "experiments" with
      | none => exact ⟨[], rfl⟩
      | some table =>
        obtain ⟨experiments, hright⟩ := h table htable
        exact ⟨experiments, experimentsOfJson?_eq_some_iff.mpr hright⟩
    refine ⟨⟨experiments, samplesOfJson (j.get? "samples")⟩, ofJson_eq_ok_iff.mp ?_⟩
    unfold Dump.ofJson
    rw [hexperiments]

/-- Every text is loaded tolerantly: if it has a value, rows that are no samples are passed over.
They make no difference to what the other rows are loaded as, as long as they are not nested deeper
than `rowNesting`. With one that is, the text has no value, and nothing is loaded. -/
theorem dumps_load_tolerantly (text : String) : LoadsTolerantly text where
  loads_iff := by
    constructor
    · intro h
      obtain ⟨dump, hdump⟩ := h
      obtain ⟨j, hread, hcontent⟩ := parse_eq_ok_iff.mp hdump
      exact ⟨j, hread, exists_isContentOf_iff.mp ⟨dump, hcontent⟩⟩
    · intro h
      obtain ⟨j, hread, htable⟩ := h
      obtain ⟨dump, hcontent⟩ := exists_isContentOf_iff.mpr htable
      exact ⟨dump, parse_eq_ok_iff.mpr ⟨j, hread, hcontent⟩⟩
  loaded_iff := fun _ => parse_eq_ok_iff
  rows := fun _ _ => exists_rowsStandAlone

/-- A text of lists within each other. -/
def nestedRow (depth : Nat) : List Char :=
  List.replicate depth '[' ++ List.replicate depth ']'

/-- A dump of one sample, and behind that a row of lists within each other. -/
def nestedText (depth : Nat) : List Char :=
  "\x7b\"samples\": [[3, 1, 2, 5, 1362], ".toList ++ nestedRow depth ++ [']', '\x7d']

/-- A row that is one list deeper than `rowNesting` has a value, but keeps the sample before it
from being loaded. A row that is just as deep as that is passed over. -/
theorem deepRow_spoils_load :
    (Json.read? (nestedRow (rowNesting + 1))).isSome = true ∧
      Dump.parse (.ofList (nestedText (rowNesting + 1))) = .error .notJson ∧
      (Dump.parse (.ofList (nestedText rowNesting))).toOption.map (·.samples.map (·.link))
        = some [3] := by
  have hnone : Json.read? (nestedText (rowNesting + 1)) = none :=
    Option.isNone_iff_eq_none.mp (by decide +kernel)
  refine ⟨by decide +kernel, ?_, ?_⟩
  · rw [Dump.parse_ofList, hnone, Option.elim_none]
  · rw [Dump.parse_ofList]
    decide +kernel

/-- A dump without a table of experiments. Its rows are a text, a sample as an array of five fields,
one whose identifier is no whole number, and an object that lacks fields. -/
def mixedText : String :=
  "\x7b\"samples\": [\"row\", [3, 1, 2, 5, 1362], [4.0, 1, 2, 5, 1362], " ++
    "\x7b\"link_state_id\": 2, \"gin\": 2\x7d]\x7d"

example : (Dump.parse mixedText).toOption.map (·.samples.map (·.link)) = some [3] := by
  decide +kernel

end ProbeGap
