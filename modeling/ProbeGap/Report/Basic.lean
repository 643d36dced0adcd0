import ProbeGap.Config.Basic
import ProbeGap.Estimate.Record
import ProbeGap.Numeric.Decimal
import ProbeGap.Store.Basic

/-!
# Reports and summaries

A report lists the estimates of all experiments of a run, with the time and the store of
the run. It is written as JSON for programs (`ProbeGap.Report.Json`) and here as text for
people; a shorter text is the summary shown at the end of a run.

The summary of a store tells what it holds: for every experiment, in the order of the names,
how many samples there are, how many of them are marked, how many links they belong to, and
the capacity of the channel.
-/

namespace ProbeGap

/-! ## §1. Reports -/

/-- The estimates of a run. -/
structure Report where
  /-- The time of the run, as text. -/
  time : String
  /-- The path of the store. -/
  store : String
  method : FitMethod
  workers : Nat
  experiments : List ExperimentEstimates
  deriving DecidableEq

/-- Lines as a text, with a line end between them. -/
def joinLines (lines : List String) : String :=
  "\n".intercalate lines

/-- A rate in bits per second as millions of bits per second. -/
def megabits (bits : Float) : String :=
  fixedText 3 (bits / 1000000) ++ " Mbit/s"

/-- A share as per cent. -/
def percent (places : Nat) (share : Float) : String :=
  fixedText places (share * 100) ++ "%"

/-- A text filled up with blanks to a width. -/
def leftAligned (width : Nat) (text : String) : String :=
  text ++ String.ofList (List.replicate (width - text.length) ' ')

/-! ## §2. The text report -/

/-- The line between the parts of the text report. -/
def ruler : String :=
  String.ofList (List.replicate 80 '=')

/-- The line that counts the rows with a status. -/
def statusLine (e : ExperimentEstimates) (status : FitStatus) : String :=
  "  " ++ leftAligned 16 (status.words ++ ":") ++ " " ++ decimal (e.countStatus status)

/-- The lines of the text report about an experiment. -/
def experimentLines (e : ExperimentEstimates) : List String :=
  [ruler,
   "  " ++ e.name ++ " (id " ++ decimal e.id.toNat ++ ")",
   ruler,
   "",
   "Physical capacity bound: " ++ megabits (e.capacity * 8),
   "Samples: " ++ decimal e.totalSamples ++ " fetched, " ++ decimal e.usedSamples
     ++ " used in regression (" ++ percent 2 e.usedRatio ++ ")",
   "Link observations attempted: " ++ decimal e.links.length,
   "  Valid estimates: " ++ decimal e.validCount,
   statusLine e .fitFailure,
   statusLine e .degenerateSlope,
   statusLine e .outOfBounds,
   "Missing estimates: " ++ percent 1 e.missingRatio,
   match e.medianBits with
   | some median => "Median estimate: " ++ megabits median
   | none => "Median estimate: n/a",
   ""]

/-- The lines of the text report. -/
def Report.lines (r : Report) : List String :=
  [ruler,
   "                 PROBE-GAP AVAILABLE BANDWIDTH ESTIMATION",
   ruler,
   "",
   "Analysis Date: " ++ r.time,
   "Measurement Store: " ++ r.store,
   "Fit Method: " ++ r.method.name,
   "Experiments: " ++ decimal r.experiments.length,
   ""] ++ r.experiments.flatMap experimentLines ++ [ruler]

/-- The text report. -/
def Report.text (r : Report) : String :=
  joinLines r.lines

/-! ## §3. The summary of a run -/

/-- The lines of the summary about an experiment. -/
def summaryLines (e : ExperimentEstimates) : List String :=
  ["",
   e.name ++ ":",
   "  Links: " ++ decimal e.links.length ++ " attempted, " ++ decimal e.validCount ++ " valid",
   "  Missing: " ++ percent 1 e.missingRatio] ++
  match e.medianBits with
  | some median => ["  Median estimate: " ++ megabits median]
  | none => []

/-- The summary of a run, every line with its end. -/
def Report.summary (r : Report) : String :=
  joinLines
    (["", "=== AVAILABLE BANDWIDTH ESTIMATION SUMMARY ===", "",
      "Method: " ++ r.method.name] ++ r.experiments.flatMap summaryLines ++ ["", ""])

/-! ## §4. The summary of a store -/

/-- The number of links that samples belong to. -/
def linkCount (samples : List (Sample Float)) : Nat :=
  (Table.groupBy (·.link) samples).entries.length

/-- The lines of the summary about an experiment. -/
def Store.experimentLines (s : Store) (config : Config) (name : String) (id : ExperimentId) :
    List String :=
  let samples := s.samplesOf id
  ["",
   name ++ " (id " ++ decimal id.toNat ++ "):",
   "  Samples: " ++ decimal samples.length,
   "  Flagged for regression: " ++ decimal (samples.countP (·.used)),
   "  Link observations: " ++ decimal (linkCount samples),
   "  Physical capacity: " ++
     match config.profile? name with
     | some profile => megabits profile.maxCapacity
     | none => "not configured"]

/-- The summary of a store, every line with its end. -/
def Store.summary (s : Store) (config : Config) : String :=
  joinLines
    (["", "=== MEASUREMENT STORE SUMMARY ===", "",
      "Total samples: " ++ decimal s.sampleCount] ++
     s.experiments.entries.flatMap (fun e => s.experimentLines config e.1 e.2) ++
     (if config.selection.recompute then ["", "Candidates are recomputed on every query"]
      else []) ++ ["", ""])

end ProbeGap
