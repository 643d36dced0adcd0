import ProbeGap.Json.Fields
import ProbeGap.Json.Printer
import ProbeGap.Store.Basic
import ProbeGap.Time.Reading
import ProbeGap.Time.Written

/-!
# Dumps as JSON

A dump is written as an object with a table of experiments and a list of samples. It is
read with tolerance for its samples: a row that is not a sample is dropped, and every
other row is unaffected. The table of experiments has to be right, if there is one.

A sample without a flag is not used, one without a time has none.

## Contents

  * `Sample.ofJson?`, `Sample.toJson`: one row.
  * `Dump.parse`, `Dump.text`: a whole dump.
-/

namespace ProbeGap

/-! ## §1. Rows -/

/-- The fields of a sample. -/
def sampleFields : List String :=
  ["link_state_id", "experiment_id", "gin", "gout", "len", "used_in_regression", "timestamp"]

/-- A time that may be null or absent. -/
def timeOfJson? : Option Json → Option (Option Instant)
  | none => some none
  | some .null => some none
  | some (.string s) => (Instant.ofText? s).map some
  | some _ => none

/-- A flag that may be absent. -/
def flagOfJson? : Option Json → Option Bool
  | none => some false
  | some j => j.bool?

/-- The sample of a row. -/
def Sample.ofJson? (row : Json) : Option (Sample Float) :=
  match row.fields? sampleFields 5 with
  | some [link, experiment, gin, gout, length, used, time] => do
    return {
      link := ← link.bind (·.uint64?)
      experiment := ← experiment.bind (·.uint64?)
      gin := ← gin.bind (·.float?)
      gout := ← gout.bind (·.float?)
      length := ← length.bind (·.float?)
      used := ← flagOfJson? used
      timestamp := ← timeOfJson? time }
  | _ => none

/-- A 64-bit number as a value. -/
def Json.ofUInt64 (n : UInt64) : Json :=
  .number (.whole n.toNat)

/-- A count as a value. -/
def Json.ofCount (n : Nat) : Json :=
  .number (.whole n)

/-- A double as a value. -/
def Json.ofFloat (x : Float) : Json :=
  .number (.float x)

/-- The row of a sample. -/
def Sample.toJson (s : Sample Float) : Json :=
  .object
    [("link_state_id", .ofUInt64 s.link),
     ("experiment_id", .ofUInt64 s.experiment),
     ("gin", .ofFloat s.gin),
     ("gout", .ofFloat s.gout),
     ("len", .ofFloat s.length),
     ("used_in_regression", .bool s.used),
     ("timestamp", match s.timestamp with
       | some t => .string t.text
       | none => .null)]

/-- The named experiment of a row. -/
def ExperimentInfo.ofJson? (row : Json) : Option ExperimentInfo :=
  match row.fields? ["id", "name"] 2 with
  | some [id, name] => do
    return { id := ← id.bind (·.uint64?), name := ← name.bind (·.text?) }
  | _ => none

/-- The row of a named experiment. -/
def ExperimentInfo.toJson (e : ExperimentInfo) : Json :=
  .object [("id", .ofUInt64 e.id), ("name", .string e.name)]

/-! ## §2. Dumps -/

/-- Why a text is not a dump. -/
inductive DumpError where
  | notJson
  | badExperiments
  deriving DecidableEq, Repr

/-- The message of an error. -/
def DumpError.message : DumpError → String
  | .notJson => "Measurement dump is not valid JSON"
  | .badExperiments => "Failed to parse experiments table"

/-- The table of experiments of a dump. A dump may lack it. -/
def experimentsOfJson? : Option Json → Option (List ExperimentInfo)
  | none => some []
  | some table => table.items?.bind (·.mapM ExperimentInfo.ofJson?)

/-- The samples among the rows of a dump. A dump may lack them. -/
def samplesOfJson : Option Json → List (Sample Float)
  | some (.array rows) => rows.filterMap Sample.ofJson?
  | _ => []

/-- The dump of a value. -/
def Dump.ofJson (j : Json) : Except DumpError Dump :=
  match experimentsOfJson? (j.get? "experiments") with
  | some experiments => .ok ⟨experiments, samplesOfJson (j.get? "samples")⟩
  | none => .error .badExperiments

/-- The dump of a text. -/
def Dump.parse (text : String) : Except DumpError Dump :=
  match Json.read? text.toList with
  | some j => Dump.ofJson j
  | none => .error .notJson

/-- The value of a dump. -/
def Dump.toJson (d : Dump) : Json :=
  .object
    [("experiments", .array (d.experiments.map (·.toJson))),
     ("samples", .array (d.samples.map (·.toJson)))]

/-- The text of a dump. -/
def Dump.text (d : Dump) : String :=
  d.toJson.prettyText

end ProbeGap
