import ProbeGap.Report.Basic
import ProbeGap.Store.DumpText

/-!
# Reports as JSON

A report is written with all fields of its rows; the reason of a missing estimate is left
out where there is none, other missing parts are null. It is read back from the tree of
a text, strictly: unknown members are passed over, but a repeated field, a missing one
and a part of the wrong kind are errors. Parts that may be null may also be left out.
-/

namespace ProbeGap

/-! ## §1. Writing -/

/-- A double that may be missing. -/
def Json.ofFloat? : Option Float → Json
  | some x => .ofFloat x
  | none => .null

/-- The value of a row. -/
def LinkRecord.toJson (r : LinkRecord) : Json :=
  .object
    ([("link_state_id", .ofUInt64 r.link),
      ("experiment_id", .ofUInt64 r.experiment),
      ("samples", .ofCount r.samples),
      ("intercept_b0", .ofFloat? r.intercept),
      ("slope_b1", .ofFloat? r.slope),
      ("estimated_abw", .ofFloat? r.estimate),
      ("status", .string r.status.name)] ++
     match r.reason with
     | some reason => [("reason", .string reason)]
     | none => [])

/-- The value of the estimates of an experiment. -/
def ExperimentEstimates.toJson (e : ExperimentEstimates) : Json :=
  .object
    [("experiment_name", .string e.name),
     ("experiment_id", .ofUInt64 e.id),
     ("method", .string e.method.name),
     ("phy_cap", .ofFloat e.capacity),
     ("total_samples", .ofCount e.totalSamples),
     ("used_samples", .ofCount e.usedSamples),
     ("links", .array (e.links.map (·.toJson)))]

/-- The value of a report. -/
def Report.toJson (r : Report) : Json :=
  .object
    [("metadata", .object
       [("analysis_timestamp", .string r.time),
        ("store_path", .string r.store),
        ("method", .string r.method.name),
        ("workers", .ofCount r.workers)]),
     ("experiments", .array (r.experiments.map (·.toJson)))]

/-- The JSON text of a report. -/
def Report.jsonText (r : Report) : String :=
  r.toJson.prettyText

/-! ## §2. Reading -/

/-- A count of 64 bits. -/
def Literal.count? (l : Literal) : Option Nat :=
  l.uint64?.map (·.toNat)

/-- The fields of a row. -/
def recordFields : List String :=
  ["link_state_id", "experiment_id", "samples", "intercept_b0", "slope_b1", "estimated_abw",
   "status", "reason"]

/-- The row of a tree. -/
def LinkRecord.ofLiteral? (l : Literal) : Option LinkRecord :=
  match l.fields? recordFields 7 with
  | some [link, experiment, samples, intercept, slope, estimate, status, reason] => do
    return {
      link := ← link.bind (·.uint64?)
      experiment := ← experiment.bind (·.uint64?)
      samples := ← samples.bind (·.count?)
      intercept := ← Literal.optional? (·.float?) intercept
      slope := ← Literal.optional? (·.float?) slope
      estimate := ← Literal.optional? (·.float?) estimate
      status := ← (status.bind (·.choice?)).bind FitStatus.ofName?
      reason := ← Literal.optional? (·.text?) reason }
  | _ => none

/-- The fields of the estimates of an experiment. -/
def estimatesFields : List String :=
  ["experiment_name", "experiment_id", "method", "phy_cap", "total_samples", "used_samples",
   "links"]

/-- The estimates of a tree. -/
def ExperimentEstimates.ofLiteral? (l : Literal) : Option ExperimentEstimates :=
  match l.fields? estimatesFields 7 with
  | some [name, id, method, capacity, total, used, links] => do
    return {
      name := ← name.bind (·.text?)
      id := ← id.bind (·.uint64?)
      method := ← (method.bind (·.choice?)).bind FitMethod.ofName?
      capacity := ← capacity.bind (·.float?)
      totalSamples := ← total.bind (·.count?)
      usedSamples := ← used.bind (·.count?)
      links := ← (← links.bind (·.items?)).mapM LinkRecord.ofLiteral? }
  | _ => none

/-- The report of a tree. -/
def Report.ofLiteral? (l : Literal) : Option Report :=
  match l.fields? ["metadata", "experiments"] 2 with
  | some [some metadata, some experiments] =>
    match metadata.fields? ["analysis_timestamp", "store_path", "method", "workers"] 4 with
    | some [time, store, method, workers] => do
      return {
        time := ← time.bind (·.text?)
        store := ← store.bind (·.text?)
        method := ← (method.bind (·.choice?)).bind FitMethod.ofName?
        workers := ← workers.bind (·.count?)
        experiments := ← (← experiments.items?).mapM ExperimentEstimates.ofLiteral? }
    | _ => none
  | _ => none

/-- The report of a JSON text. -/
def Report.read? (text : String) : Option Report :=
  (Literal.read? text.toList).bind Report.ofLiteral?

end ProbeGap
