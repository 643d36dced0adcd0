import ProbeGap.Proofs.Config.Validation
import ProbeGap.Proofs.Estimate.Accounting
import ProbeGap.Proofs.Estimate.Records
import ProbeGap.Proofs.Json.Typed
import ProbeGap.Proofs.Store.DumpText
import ProbeGap.Report.Json

/-!
# Reports are read back

The JSON text of a report gives back the report, but for its numbers, each of which becomes what
its own text is read as. A number that is not finite would be written as null, and then a row
would lose its estimate without a word, and an experiment without capacity would make the whole
text unreadable. Neither happens: a capacity that was validated is finite, so is an estimate
between zero and the capacity, and so are the coefficients of a line that was fitted.

## Contents

  * `LinkRecord.IsAgain`, `Report.IsAgain`: a report and what becomes of it.
  * `LinkRecord.IsReadable`, `Report.IsReadable`: what comes back, part by part
    (`Report.IsReadable.exists_read?`).
  * `isFinite_of_mem_numbers`: the numbers of estimates are finite, so that estimates are readable
    (`isReadable_of_estimateExperiment`).
  * `reports_are_read_back`: the text of a report of estimates.
-/

namespace ProbeGap

/-! ## §1. Reports read again -/

/-- The numbers of a row that it has. -/
def LinkRecord.numbers (r : LinkRecord) : List Float :=
  r.intercept.toList ++ r.slope.toList ++ r.estimate.toList

/-- The numbers of the estimates of an experiment. -/
def ExperimentEstimates.numbers (e : ExperimentEstimates) : List Float :=
  e.capacity :: e.links.flatMap (·.numbers)

/-- The numbers of a report. -/
def Report.numbers (r : Report) : List Float :=
  r.experiments.flatMap (·.numbers)

/-- A number that may be missing, and what its text is read as. -/
def RereadAs : Option Float → Option Float → Prop :=
  Option.Rel fun x y => rereadFloat? x = some y

theorem RereadAs.eq_none_iff {x y : Option Float} (h : RereadAs x y) : x = none ↔ y = none := by
  cases h <;> simp

/-- A row that has the same as another but for its numbers, which are those of the other as they
are read. -/
structure LinkRecord.IsAgain (r r' : LinkRecord) : Prop where
  rest : r' = { r with intercept := r'.intercept, slope := r'.slope, estimate := r'.estimate }
  intercept : RereadAs r.intercept r'.intercept
  slope : RereadAs r.slope r'.slope
  estimate : RereadAs r.estimate r'.estimate

/-- The estimates of an experiment as they are read, row by row. -/
structure ExperimentEstimates.IsAgain (e e' : ExperimentEstimates) : Prop where
  rest : e' = { e with capacity := e'.capacity, links := e'.links }
  capacity : rereadFloat? e.capacity = some e'.capacity
  links : List.Forall₂ LinkRecord.IsAgain e.links e'.links

/-- A report as it is read, experiment by experiment. -/
structure Report.IsAgain (r r' : Report) : Prop where
  rest : r' = { r with experiments := r'.experiments }
  experiments : List.Forall₂ ExperimentEstimates.IsAgain r.experiments r'.experiments

/-! ## §2. Parts of a row -/

/-- A count is a whole number of 64 bits. -/
theorem ofCount_eq_ofUInt64 {n : Nat} (h : n < countLimit) :
    Json.ofCount n = Json.ofUInt64 (UInt64.ofNat n) := by
  unfold Json.ofCount Json.ofUInt64
  rw [UInt64.toNat_ofNat_of_lt' h]

theorem reread?_ofCount {n : Nat} (h : n < countLimit) (room : Nat) :
    (Json.ofCount n).reread? room = some (.ofCount n) :=
  read?_whole h

theorem decodesTo_ofUInt64 (n : UInt64) : DecodesTo Literal.uint64? (.ofUInt64 n) n :=
  decodesTo_uint64 (uint64?_ofUInt64 n)

theorem decodesTo_ofCount {n : Nat} (h : n < countLimit) :
    DecodesTo Literal.count? (.ofCount n) n := by
  intro l hl
  rw [ofCount_eq_ofUInt64 h] at hl
  rw [Literal.count?, decodesTo_ofUInt64 _ l hl, Option.map_some, UInt64.toNat_ofNat_of_lt' h]

theorem FitMethod.ofName?_name (method : FitMethod) : ofName? method.name = some method := by
  cases method <;> rfl

theorem FitStatus.ofName?_name (status : FitStatus) : ofName? status.name = some status := by
  cases status <;> rfl

/-- A number that is readable comes back as a number. -/
theorem exists_number {x : Float} (h : (rereadFloat? x).isSome = true) (room : Nat) :
    ∃ y j, (Json.ofFloat x).reread? room = some j ∧ rereadFloat? x = some y ∧
      j.float? = some y := by
  obtain ⟨y, hy⟩ := Option.isSome_iff_exists.mp h
  have hfinite : x.isFinite = true := by
    cases hx : x.isFinite with
    | true => rfl
    | false =>
      rw [rereadFloat?_eq_none hx] at hy
      cases hy
  obtain ⟨j, hj, hfloat⟩ := exists_read?_float fun _ => h
  exact ⟨y, j, hj, hy, hfloat.trans hy⟩

/-- The value of a number that may be missing. -/
inductive IsOptional : Json → Option Float → Prop
  | null : IsOptional .null none
  | number {j : Json} {x : Float} (h : j.float? = some x) : IsOptional j (some x)

theorem IsOptional.eq_null_iff {j : Json} {x : Option Float} (h : IsOptional j x) :
    j = .null ↔ x = none := by
  cases h with
  | null => simp
  | number hx =>
    constructor
    · rintro rfl
      cases hx
    · exact nofun

theorem HasFields.optional_float {l : Literal} {meant : List (String × Json)}
    {field : String → Option Literal} (h : HasFields l meant field) (name : String) {j : Json}
    {x : Option Float} (hname : meant.lookup name = some j) (hj : IsOptional j x) :
    Literal.optional? (·.float?) (field name) = some x := by
  cases hj with
  | null => exact h.optional_null hname
  | number hx =>
    apply h.optional_decode hname
    · rintro rfl
      cases hx
    · exact decodesTo_float hx

/-- A number that may be missing comes back if it is readable where it is there. -/
theorem exists_optional {x : Option Float}
    (h : ∀ value ∈ x.toList, (rereadFloat? value).isSome = true) (room : Nat) :
    ∃ y j, (Json.ofFloat? x).reread? room = some j ∧ RereadAs x y ∧ IsOptional j y := by
  cases x with
  | none => exact ⟨none, .null, rfl, .none, .null⟩
  | some value =>
    obtain ⟨y, j, hj, hy, hfloat⟩ := exists_number (h value (by simp)) room
    exact ⟨some y, j, hj, .some hy, .number hfloat⟩

/-! ## §3. Rows of links -/

/-- A row that comes back: its numbers are readable and its count has 64 bits. It has an estimate
exactly if it is valid. -/
structure LinkRecord.IsReadable (r : LinkRecord) : Prop where
  samples : r.samples < countLimit
  numbers : ∀ x ∈ r.numbers, (rereadFloat? x).isSome = true
  missing : r.estimate = none ↔ r.status ≠ .valid

/-- The members of a reason that may be missing. -/
def reasonMembers : Option String → List (String × Json)
  | some reason => [("reason", .string reason)]
  | none => []

/-- The row of a link with other values in the place of its numbers. -/
def LinkRecord.membersWith (r : LinkRecord) (intercept slope estimate : Json) :
    List (String × Json) :=
  [("link_state_id", .ofUInt64 r.link),
   ("experiment_id", .ofUInt64 r.experiment),
   ("samples", .ofCount r.samples),
   ("intercept_b0", intercept),
   ("slope_b1", slope),
   ("estimated_abw", estimate),
   ("status", .string r.status.name)] ++ reasonMembers r.reason

section linkRows

variable {r : LinkRecord} {intercept slope estimate : Json}

theorem LinkRecord.toJson_eq (r : LinkRecord) :
    r.toJson = .object (r.membersWith (.ofFloat? r.intercept) (.ofFloat? r.slope)
      (.ofFloat? r.estimate)) := by
  unfold LinkRecord.toJson LinkRecord.membersWith reasonMembers
  cases r.reason <;> rfl

theorem get?_estimate : (Json.object (r.membersWith intercept slope estimate)).get?
    "estimated_abw" = some estimate := by
  unfold LinkRecord.membersWith
  cases r.reason <;> rfl

/-- A row comes back with what its numbers come back as. -/
theorem reread?_linkRow (hsamples : r.samples < countLimit) {room : Nat}
    {intercept' slope' estimate' : Json} (hintercept : intercept.reread? room = some intercept')
    (hslope : slope.reread? room = some slope')
    (hestimate : estimate.reread? room = some estimate') :
    (Json.object (r.membersWith intercept slope estimate)).reread? (room + 1)
      = some (.object (r.membersWith intercept' slope' estimate')) := by
  have hreason : rereadMembers? room (reasonMembers r.reason) = some (reasonMembers r.reason) := by
    cases r.reason <;> rfl
  unfold LinkRecord.membersWith
  simp only [Json.reread?, List.cons_append, List.nil_append, rereadMembers?, reread?_ofUInt64,
    reread?_ofCount hsamples, hintercept, hslope, hestimate, hreason, Option.map_some]

/-- All trees of a row are decoded to the row with the numbers that it has. -/
theorem decodesTo_linkRow (hsamples : r.samples < countLimit) {b₀ b₁ abw : Option Float}
    (hintercept : IsOptional intercept b₀) (hslope : IsOptional slope b₁)
    (hestimate : IsOptional estimate abw) :
    DecodesTo LinkRecord.ofLiteral? (.object (r.membersWith intercept slope estimate))
      { r with intercept := b₀, slope := b₁, estimate := abw } := by
  intro l hl
  have hnodup : ((r.membersWith intercept slope estimate).map (·.1)).Nodup := by
    unfold LinkRecord.membersWith reasonMembers
    cases r.reason <;> simp
  obtain ⟨field, h⟩ := hl.exists_hasFields hnodup
  have hlink := h.bind_decode "link_state_id" rfl (decodesTo_ofUInt64 r.link)
  have hexperiment :=
    h.bind_decode "experiment_id" rfl (decodesTo_ofUInt64 r.experiment)
  have hcount := h.bind_decode "samples" rfl (decodesTo_ofCount hsamples)
  have hintercept' := h.optional_float "intercept_b0" rfl hintercept
  have hslope' := h.optional_float "slope_b1" rfl hslope
  have hestimate' := h.optional_float "estimated_abw" rfl hestimate
  have hstatus := h.bind_decode "status" rfl (decodesTo_choice r.status.name)
  have hreason : Literal.optional? (·.text?) (field "reason") = some r.reason := by
    unfold LinkRecord.membersWith at h
    cases hr : r.reason with
    | none =>
      rw [hr] at h
      exact h.optional_missing rfl
    | some reason =>
      rw [hr] at h
      exact h.optional_decode rfl nofun (decodesTo_text reason)
  rw [LinkRecord.ofLiteral?, h.fields]
  simp only [recordFields, List.map_cons, List.map_nil, hlink, hexperiment, hcount, hintercept',
    hslope', hestimate', hstatus, hreason, Option.bind_some, FitStatus.ofName?_name,
    Option.bind_eq_bind]
  rfl

/-- A readable row comes back, and shows null for its estimate unless it is valid. -/
theorem LinkRecord.IsReadable.exists_row (h : r.IsReadable) (room : Nat) :
    ∃ r' row, r.toJson.reread? (room + 1) = some row ∧ DecodesTo LinkRecord.ofLiteral? row r' ∧
      r.IsAgain r' ∧ (row.get? "estimated_abw" = some .null ↔ r.status ≠ .valid) := by
  obtain ⟨b₀, intercept, hintercept, hagain₀, hoptional₀⟩ :=
    exists_optional (x := r.intercept) (fun x hx => h.numbers x (by simp_all [LinkRecord.numbers]))
      room
  obtain ⟨b₁, slope, hslope, hagain₁, hoptional₁⟩ :=
    exists_optional (x := r.slope) (fun x hx => h.numbers x (by simp_all [LinkRecord.numbers])) room
  obtain ⟨abw, estimate, hestimate, hagain, hoptional⟩ :=
    exists_optional (x := r.estimate) (fun x hx => h.numbers x (by simp_all [LinkRecord.numbers]))
      room
  refine ⟨{ r with intercept := b₀, slope := b₁, estimate := abw },
    .object (r.membersWith intercept slope estimate), ?_,
    decodesTo_linkRow h.samples hoptional₀ hoptional₁ hoptional,
    ⟨rfl, hagain₀, hagain₁, hagain⟩, ?_⟩
  · rw [r.toJson_eq]
    exact reread?_linkRow h.samples hintercept hslope hestimate
  · rw [get?_estimate, Option.some.injEq, hoptional.eq_null_iff, ← hagain.eq_none_iff]
    exact h.missing

end linkRows

/-! ## §4. Experiments -/

/-- The members of the estimates of an experiment, with other values in the place of its capacity
and its rows. -/
def ExperimentEstimates.membersWith (e : ExperimentEstimates) (capacity : Json)
    (links : List Json) : List (String × Json) :=
  [("experiment_name", .string e.name),
   ("experiment_id", .ofUInt64 e.id),
   ("method", .string e.method.name),
   ("phy_cap", capacity),
   ("total_samples", .ofCount e.totalSamples),
   ("used_samples", .ofCount e.usedSamples),
   ("links", .array links)]

/-- Estimates that come back: their capacity and their rows are readable, and their counts have
64 bits. -/
structure ExperimentEstimates.IsReadable (e : ExperimentEstimates) : Prop where
  total : e.totalSamples < countLimit
  used : e.usedSamples < countLimit
  capacity : (rereadFloat? e.capacity).isSome = true
  links : ∀ r ∈ e.links, r.IsReadable

/-- The value of the estimates of an experiment shows null for the estimates of the links that are
not valid, and only there. -/
def ExperimentEstimates.ShowsMissing (e : ExperimentEstimates) (j : Json) : Prop :=
  ∃ rows, j.get? "links" = some (.array rows) ∧
    List.Forall₂ (fun r row => row.get? "estimated_abw" = some .null ↔ r.status ≠ .valid)
      e.links rows

section experiments

variable {e : ExperimentEstimates}

/-- All trees of a row are decoded to the estimates with the capacity and the rows that it has. -/
theorem decodesTo_experimentRow (he : e.IsReadable) {capacity : Json} {x : Float}
    (hcapacity : capacity.float? = some x) {rows : List Json} {links : List LinkRecord}
    (hlinks : List.Forall₂ (DecodesTo LinkRecord.ofLiteral?) rows links) :
    DecodesTo ExperimentEstimates.ofLiteral? (.object (e.membersWith capacity rows))
      { e with capacity := x, links := links } := by
  intro l hl
  have hnodup : ((e.membersWith capacity rows).map (·.1)).Nodup := by
    unfold ExperimentEstimates.membersWith
    simp
  obtain ⟨field, h⟩ := hl.exists_hasFields hnodup
  have hname := h.bind_decode "experiment_name" rfl (decodesTo_text e.name)
  have hid := h.bind_decode "experiment_id" rfl (decodesTo_ofUInt64 e.id)
  have hmethod := h.bind_decode "method" rfl (decodesTo_choice e.method.name)
  have hcapacity' := h.bind_decode "phy_cap" rfl (decodesTo_float hcapacity)
  have htotal := h.bind_decode "total_samples" rfl (decodesTo_ofCount he.total)
  have hused := h.bind_decode "used_samples" rfl (decodesTo_ofCount he.used)
  have hrows := h.bind_decode "links" rfl (decodesTo_items hlinks)
  rw [← Option.bind_assoc, Option.bind_eq_some_iff] at hrows
  obtain ⟨items, hitems, hrows⟩ := hrows
  rw [ExperimentEstimates.ofLiteral?, h.fields]
  simp only [estimatesFields, List.map_cons, List.map_nil, hname, hid, hmethod, hcapacity',
    htotal, hused, hitems, hrows, Option.bind_some, FitMethod.ofName?_name, Option.bind_eq_bind]
  rfl

/-- Readable estimates come back. -/
theorem ExperimentEstimates.IsReadable.exists_row (h : e.IsReadable) (room : Nat) :
    ∃ e' row, e.toJson.reread? (room + 3) = some row ∧
      DecodesTo ExperimentEstimates.ofLiteral? row e' ∧ e.IsAgain e' ∧ e.ShowsMissing row := by
  obtain ⟨x, capacity, hcapacity, hx, hfloat⟩ := exists_number h.capacity (room + 2)
  obtain ⟨links, rows, hrows, hdecode, hagain, hshows⟩ :=
    exists_items fun r hr => (h.links r hr).exists_row room
  refine ⟨{ e with capacity := x, links := links }, .object (e.membersWith capacity rows), ?_,
    decodesTo_experimentRow h hfloat hdecode, ⟨rfl, hx, hagain⟩, rows, rfl, hshows⟩
  unfold ExperimentEstimates.toJson ExperimentEstimates.membersWith
  simp only [Json.reread?, rereadMembers?, reread?_ofUInt64, reread?_ofCount h.total,
    reread?_ofCount h.used, hcapacity, hrows, Option.map_some]

end experiments

/-! ## §5. Reports -/

/-- The members of what a report says of its run. -/
def Report.metadataMembers (r : Report) : List (String × Json) :=
  [("analysis_timestamp", .string r.time),
   ("store_path", .string r.store),
   ("method", .string r.method.name),
   ("workers", .ofCount r.workers)]

/-- The members of a report, with other rows in the place of its experiments. -/
def Report.membersWith (r : Report) (rows : List Json) : List (String × Json) :=
  [("metadata", .object r.metadataMembers), ("experiments", .array rows)]

/-- A report that comes back. -/
structure Report.IsReadable (r : Report) : Prop where
  workers : r.workers < countLimit
  experiments : ∀ e ∈ r.experiments, e.IsReadable

/-- The value of a report shows null for the estimates of the links that are not valid, and only
there. -/
def Report.ShowsMissing (r : Report) (j : Json) : Prop :=
  ∃ rows, j.get? "experiments" = some (.array rows) ∧
    List.Forall₂ ExperimentEstimates.ShowsMissing r.experiments rows

section reports

variable {r : Report}

/-- All trees of a report are decoded to the report with the experiments that it has. -/
theorem decodesTo_report (hworkers : r.workers < countLimit) {rows : List Json}
    {experiments : List ExperimentEstimates}
    (hexperiments : List.Forall₂ (DecodesTo ExperimentEstimates.ofLiteral?) rows experiments) :
    DecodesTo Report.ofLiteral? (.object (r.membersWith rows))
      { r with experiments := experiments } := by
  intro l hl
  obtain ⟨field, h⟩ := hl.exists_hasFields (by simp [Report.membersWith])
  obtain ⟨metadata, hmetadata, hmeans⟩ := h.means "metadata" (.object r.metadataMembers) rfl
  obtain ⟨listed, hlisted, hitems⟩ := h.means "experiments" (.array rows) rfl
  obtain ⟨inner, hinner⟩ := hmeans.exists_hasFields (by simp [Report.metadataMembers])
  have htime := hinner.bind_decode "analysis_timestamp" rfl (decodesTo_text r.time)
  have hstore := hinner.bind_decode "store_path" rfl (decodesTo_text r.store)
  have hmethod := hinner.bind_decode "method" rfl (decodesTo_choice r.method.name)
  have hcount := hinner.bind_decode "workers" rfl (decodesTo_ofCount hworkers)
  have hrows := decodesTo_items hexperiments listed hitems
  obtain ⟨items, hitems, hrows⟩ := Option.bind_eq_some_iff.mp hrows
  rw [Report.ofLiteral?, h.fields]
  simp only [List.map_cons, List.map_nil, hmetadata, hlisted, hinner.fields, htime, hstore,
    hmethod, hcount, hitems, hrows, Option.bind_some, FitMethod.ofName?_name, Option.bind_eq_bind]
  rfl

theorem Report.IsReadable.exists_value (h : r.IsReadable) :
    ∃ r' j, r.toJson.reread? maxNesting = some j ∧ DecodesTo Report.ofLiteral? j r' ∧
      r.IsAgain r' ∧ r.ShowsMissing j := by
  obtain ⟨experiments, rows, hrows, hdecode, hagain, hshows⟩ :=
    exists_items fun e he => (h.experiments e he).exists_row (maxNesting - 5)
  refine ⟨{ r with experiments := experiments }, .object (r.membersWith rows), ?_,
    decodesTo_report h.workers hdecode, ⟨rfl, hagain⟩, rows, rfl, hshows⟩
  have hroom : maxNesting = maxNesting - 5 + 3 + 1 + 1 := rfl
  rw [hroom]
  unfold Report.toJson Report.membersWith Report.metadataMembers
  simp only [Json.reread?, rereadMembers?, reread?_ofCount h.workers, hrows, Option.map_some]

/-- A readable report is read back from its text. -/
theorem Report.IsReadable.exists_read? (h : r.IsReadable) :
    ∃ r' j, r.IsAgain r' ∧ Report.read? r.jsonText = some r' ∧
      Json.read? r.jsonText.toList = some j ∧ r.ShowsMissing j := by
  obtain ⟨r', j, hj, hdecode, hagain, hshows⟩ := h.exists_value
  have htext : r.jsonText.toList = Json.pretty 0 r.toJson := String.toList_ofList
  obtain ⟨literal, hliteral, hresolve⟩ := Literal.exists_read?_pretty r.toJson
  refine ⟨r', j, hagain, ?_, ?_, hshows⟩
  · rw [Report.read?, htext, hliteral]
    exact hdecode literal ⟨maxNesting, (hresolve maxNesting).trans hj⟩
  · rw [htext, Json.read?_pretty, hj]

end reports

/-! ## §6. Reports of estimates -/

section estimates

variable {store : Store} {config : Config} {e : Estimator Float} {name : String}
  {estimates : ExperimentEstimates}

/-- The rows of estimates are sound under their capacity. -/
theorem isSound_of_mem_links (h : estimateExperiment store config e name = .ok estimates) :
    ∀ r ∈ estimates.links, r.IsSound estimates.capacity e.slopeEpsilon := by
  obtain ⟨profile, id, rows, -, -, -, rfl⟩ := estimateExperiment_eq_ok_iff.mp h
  intro r hr
  obtain ⟨link, -, rfl⟩ := mem_links_iff.mp hr
  exact LinkRecord.isSound_ofOutcome (e.isSound_outcome _ _)

theorem isFinite_capacity (hvalid : config.validate = .ok ())
    (h : estimateExperiment store config e name = .ok estimates) :
    estimates.capacity.isFinite = true := by
  obtain ⟨profile, id, rows, hprofile, -, -, rfl⟩ := estimateExperiment_eq_ok_iff.mp h
  exact (Config.isValid_profile hvalid hprofile).isFinite_physicalCapacity

/-- A row that is sound has finite numbers. -/
theorem LinkRecord.IsSound.isFinite {r : LinkRecord} {capacity slopeEpsilon : Float}
    (h : r.IsSound capacity slopeEpsilon) :
    ∀ x ∈ r.numbers, x.isFinite = true := by
  intro x hx
  simp only [LinkRecord.numbers, List.mem_append, Option.mem_toList] at hx
  rcases hx with (hintercept | hslope) | hestimate
  · exact h.intercept_finite x hintercept
  · exact (h.slope_accepted x hslope).1
  · obtain ⟨-, hpos, hlt⟩ := h.estimate_within x hestimate
    exact isFinite_of_nonneg_of_lt (zero_le_of_pos hpos) hlt

/-- Under a valid configuration all numbers of estimates are finite. -/
theorem isFinite_of_mem_numbers (hvalid : config.validate = .ok ())
    (h : estimateExperiment store config e name = .ok estimates) :
    ∀ x ∈ estimates.numbers, x.isFinite = true := by
  intro x hx
  rcases List.mem_cons.mp hx with rfl | hx
  · exact isFinite_capacity hvalid h
  · obtain ⟨r, hr, hx⟩ := List.mem_flatMap.mp hx
    exact (isSound_of_mem_links h r hr).isFinite x hx

/-- No more samples are used than were fetched, and none are used by more than one link. -/
theorem samples_le_total (h : estimateExperiment store config e name = .ok estimates) :
    estimates.usedSamples ≤ estimates.totalSamples ∧
      ∀ r ∈ estimates.links, r.samples ≤ estimates.totalSamples := by
  obtain ⟨profile, id, rows, -, -, -, rfl⟩ := estimateExperiment_eq_ok_iff.mp h
  have hbalances := balances_estimates e name id profile.physicalCapacity rows
  refine ⟨hbalances.used_le_total, fun r hr => ?_⟩
  rw [hbalances.own_samples r hr, hbalances.fetched]
  exact List.countP_le_length

/-- Estimates come back if the texts of their numbers are readable and the fetched samples can be
counted in 64 bits. -/
theorem isReadable_of_estimateExperiment (hvalid : config.validate = .ok ())
    (h : estimateExperiment store config e name = .ok estimates)
    (htotal : estimates.totalSamples < countLimit)
    (hreadable : ∀ x ∈ estimates.numbers, x.isFinite = true → (rereadFloat? x).isSome = true) :
    estimates.IsReadable := by
  have hnumbers : ∀ x ∈ estimates.numbers, (rereadFloat? x).isSome = true :=
    fun x hx => hreadable x hx (isFinite_of_mem_numbers hvalid h x hx)
  obtain ⟨hused, hsamples⟩ := samples_le_total h
  refine ⟨htotal, Nat.lt_of_le_of_lt hused htotal, hnumbers _ List.mem_cons_self, ?_⟩
  intro r hr
  refine ⟨Nat.lt_of_le_of_lt (hsamples r hr) htotal, fun x hx => hnumbers x ?_, ?_⟩
  · exact List.mem_cons_of_mem _ (List.mem_flatMap.mpr ⟨r, hr, hx⟩)
  · rw [ne_eq, (isSound_of_mem_links h r hr).valid_iff_estimate]
    simp

end estimates

/-- A report of estimates that were made under valid configurations. -/
def Report.IsEstimated (r : Report) : Prop :=
  ∀ estimates ∈ r.experiments, ∃ store config e name, config.validate = .ok () ∧
    estimateExperiment store config e name = .ok estimates

/-- The counts of a report have 64 bits. -/
structure Report.IsCountable (r : Report) : Prop where
  workers : r.workers < countLimit
  experiments : ∀ estimates ∈ r.experiments, estimates.totalSamples < countLimit

/-- The JSON text of a report of estimates is read as the report, but for its numbers, which
become what their texts are read as. The text shows null for the estimates of the links that are
not valid, and for no other. -/
theorem reports_are_read_back (r : Report) (hcounts : r.IsCountable) (hestimated : r.IsEstimated)
    (hreadable : ∀ x ∈ r.numbers, x.isFinite = true → (rereadFloat? x).isSome = true) :
    ∃ r' j, r.IsAgain r' ∧ Report.read? r.jsonText = some r' ∧
      Json.read? r.jsonText.toList = some j ∧ r.ShowsMissing j := by
  apply Report.IsReadable.exists_read?
  refine ⟨hcounts.workers, fun estimates hestimates => ?_⟩
  obtain ⟨store, config, e, name, hvalid, hok⟩ := hestimated estimates hestimates
  apply isReadable_of_estimateExperiment hvalid hok (hcounts.experiments estimates hestimates)
  intro x hx
  exact hreadable x (List.mem_flatMap.mpr ⟨estimates, hestimates, hx⟩)

/-- The report of a run on the four links. -/
def fourLinksReport (estimates : ExperimentEstimates) : Report where
  time := "2025-05-01T10:00:00Z"
  store := "C:\\runs\\four \"links\".json"
  method := .robust
  workers := 4
  experiments := [estimates]

/-- The report of the four links is read back. One link in it is valid. -/
theorem fourLinksReport_is_read_back :
    ∃ estimates, estimateExperiment fourLinks fourLinksConfig
        fourLinksConfig.estimator.estimator "exp1" = .ok estimates ∧
      estimates.links.map (·.status) = [.valid, .degenerateSlope, .fitFailure, .outOfBounds] ∧
      ∃ r' j, (fourLinksReport estimates).IsAgain r' ∧
        Report.read? (fourLinksReport estimates).jsonText = some r' ∧
        Json.read? (fourLinksReport estimates).jsonText.toList = some j ∧
        (fourLinksReport estimates).ShowsMissing j := by
  have hview : (estimateExperiment fourLinks fourLinksConfig
      fourLinksConfig.estimator.estimator "exp1").toOption.map (fun estimates =>
        (estimates.links.map (·.status), estimates.totalSamples,
          (fourLinksReport estimates).numbers.all fun x => (rereadFloat? x).isSome))
      = some ([.valid, .degenerateSlope, .fitFailure, .outOfBounds], 8, true) := by
    decide +kernel
  obtain ⟨estimates, hok, hfacts⟩ := exists_ok_of_view hview
  simp only [Prod.mk.injEq, List.all_eq_true] at hfacts
  obtain ⟨hstatus, htotal, hreadable⟩ := hfacts
  refine ⟨estimates, hok, hstatus, ?_⟩
  apply reports_are_read_back
  · have hworkers : 4 < countLimit := by decide
    refine ⟨hworkers, fun other hother => ?_⟩
    rw [List.mem_singleton.mp hother, htotal]
    decide
  · intro other hother
    rw [List.mem_singleton.mp hother]
    exact ⟨_, _, _, _, rfl, hok⟩
  · exact fun x hx _ => hreadable x hx

end ProbeGap
