import ProbeGap.Numeric.Count
import ProbeGap.Store.Marking

/-!
# The measurement store

A store holds named experiments and the samples of experiments. The two are kept apart:
a name leads to an identifier, and an identifier to the samples in the order in which
they were added. Naming an experiment makes room for its samples, so every name leads to
an identifier that is known, while samples may also belong to an identifier without name.

A `Dump` is the content of a store as two lists, the form in which it is written.

## Contents

  * `Store`, with the two ways to add to it.
  * `Store.resolve`, `Store.candidates`: what the estimator asks for.
  * `Dump`, `Store.ofDump`, `Store.toDump`: reloading restores what was written.
-/

namespace ProbeGap

/-! ## §1. Dumps -/

/-- The name of an experiment. -/
structure ExperimentInfo where
  id : ExperimentId
  name : String
  deriving DecidableEq

/-- The content of a store as two lists. -/
structure Dump where
  experiments : List ExperimentInfo
  samples : List (Sample Float)

/-! ## §2. Stores -/

/-- Why a store could not answer. -/
inductive StoreError where
  | notFound (name : String)
  | unknownId (id : ExperimentId)
  deriving DecidableEq

/-- The message of a store error. -/
def StoreError.message : StoreError → String
  | .notFound name => "experiment '" ++ name ++ "' not found in the measurement store"
  | .unknownId id =>
    "experiment id " ++ decimal id.toNat ++ " not found in the measurement store"

/-- A store of measurements. -/
structure Store where
  /-- The identifiers of the experiments, by name. -/
  experiments : Table String ExperimentId
  /-- The samples of the experiments, in the order in which they were added. -/
  samples : Table ExperimentId (Array (Sample Float))
  /-- Decide the flags anew for every query. -/
  recompute : Bool := false

namespace Store

/-- The store that holds nothing. -/
def empty : Store := ⟨.empty, .empty, false⟩

/-- The same content, with the flags decided anew or taken as stored. -/
def withRecompute (s : Store) (on : Bool) : Store :=
  { s with recompute := on }

/-- Let a name lead to an identifier, in the place of the present one. -/
def addExperiment (s : Store) (info : ExperimentInfo) : Store :=
  { s with
    experiments := s.experiments.insert info.name info.id
    samples := s.samples.update info.id (·.getD #[]) }

/-- Add a sample behind the others of its experiment. -/
def addSample (s : Store) (sample : Sample Float) : Store :=
  { s with samples := s.samples.update sample.experiment fun rows => (rows.getD #[]).push sample }

/-- The samples of an experiment; none if it is not known. -/
def samplesOf (s : Store) (id : ExperimentId) : List (Sample Float) :=
  ((s.samples.get? id).getD #[]).toList

/-- The number of samples of all experiments. -/
def sampleCount (s : Store) : Nat :=
  total (s.samples.values.map (·.size))

/-- The identifier of a name. -/
def resolve (s : Store) (name : String) : Except StoreError ExperimentId :=
  match s.experiments.get? name with
  | some id => .ok id
  | none => .error (.notFound name)

/-- Whether a sample lies within the window of a query. Without a window all do; with one,
a sample without a time does not. -/
def isWithin (window : Option TimeWindow) (sample : Sample Float) : Bool :=
  match window, sample.timestamp with
  | some w, some t => w.contains t
  | some _, none => false
  | none, _ => true

/-- The samples of an experiment that a query asks for, marked or not. -/
def candidates (s : Store) (q : CandidateQuery Float) :
    Except StoreError (List (Sample Float)) :=
  match s.samples.get? q.experiment with
  | none => .error (.unknownId q.experiment)
  | some rows =>
    let selected := rows.toList.filter (isWithin q.window)
    .ok (if s.recompute then markCandidates q selected else selected)

/-! ## §3. Dumping and loading -/

/-- The store with the content of a dump. -/
def ofDump (d : Dump) : Store :=
  d.samples.foldl addSample (d.experiments.foldl addExperiment empty)

/-- The content of a store: names in order, then samples by experiment. -/
def toDump (s : Store) : Dump where
  experiments := s.experiments.entries.map fun e => ⟨e.2, e.1⟩
  samples := s.samples.values.flatMap (·.toList)

end Store
end ProbeGap
