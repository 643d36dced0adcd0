import ProbeGap.Command.Arguments
import ProbeGap.Config.Reading
import ProbeGap.Estimate.Experiment
import ProbeGap.Files.Tree
import ProbeGap.Report.Json
import ProbeGap.Store.Opening
import ProbeGap.Synth.Generate
import ProbeGap.Synth.Words

/-!
# Plans

What a command does is decided before anything is changed. A command reads the files it
needs and either fails or makes a plan: directories to create, files to write, and a text
to show in the end. Only carrying out a plan changes files; if a step fails, the steps
before it stay done and nothing is shown.

## Contents

  * `RunError`: why a command failed, with its message.
  * `Plan`, `Invocation.plan`: what a command is going to do.
  * `Plan.perform`: a plan carried out on a file tree.
  * `runCommandLine`: a command line carried out on a file tree.
-/

namespace ProbeGap

/-! ## §1. Errors -/

/-- Why a command failed. -/
inductive RunError where
  | config (error : ConfigError)
  | file (error : FileError)
  | nothingToEstimate (store : String)
  | notEstimated (name : String) (cause : EstimationError)
  | directoryNotCreated (path : String)
  | jsonReportNotWritten (path : String)
  | textReportNotWritten (path : String)
  | noProfile (name : String)
  | notGenerated (cause : SynthError)
  deriving DecidableEq

/-- The message of an error. -/
def RunError.message : RunError → String
  | .config error => error.message
  | .file error => error.message
  | .nothingToEstimate store => "No experiment in " ++ store ++ " has a capacity profile"
  | .notEstimated name _ => "Failed to estimate experiment '" ++ name ++ "'"
  | .directoryNotCreated path => "Failed to create output directory: " ++ path
  | .jsonReportNotWritten path => "Failed to write JSON report to " ++ path
  | .textReportNotWritten path => "Failed to write text report to " ++ path
  | .noProfile name => "No capacity profile for experiment '" ++ name ++ "'"
  | .notGenerated _ => "Failed to generate synthetic measurements"

/-- Whether a command broke down, or never ends, rather than that it was refused. -/
def RunError.isBreakdown : RunError → Bool
  | .notGenerated cause => cause.isBreakdown
  | _ => false

/-! ## §2. Plans -/

/-- One change of the files. -/
inductive PlanStep where
  | createDirectory (path : String)
  /-- Write a file; if that cannot be done, the command fails with an error. -/
  | writeFile (path : String) (bytes : ByteArray) (failure : RunError)

/-- The error of a step that cannot be done. -/
def PlanStep.failure : PlanStep → RunError
  | .createDirectory path => .directoryNotCreated path
  | .writeFile _ _ failure => failure

/-- What a command is going to do. -/
structure Plan where
  steps : List PlanStep := []
  /-- What is shown once all steps are done. -/
  output : String := ""

variable [Codec]

/-- Write a snapshot. -/
def snapshotStep (path : String) (d : Dump) : PlanStep :=
  .writeFile path (snapshotFile d) (.file (.snapshotNotCreated path))

/-- Write a dump in the form that the path tells. -/
def dumpStep (path : String) (d : Dump) : PlanStep :=
  if isSnapshotPath path then snapshotStep path d
  else .writeFile path (dumpFile d) (.file (.dumpNotWritten path))

/-! ## §3. Estimating -/

/-- The experiments that a store and a configuration both have, in the order of names. -/
def sharedExperiments (store : Store) (config : Config) : List String :=
  store.experiments.keys.filter config.experiments.contains

/-- The experiments to estimate: the named one, or all that can be. -/
def attemptedExperiments (store : Store) (config : Config) (named : Option String) :
    List String :=
  match named with
  | some name => [name]
  | none => sharedExperiments store config

/-- Estimate the named experiment or all that can be, up to the first failure. -/
def estimateAttempted (path : String) (store : Store) (config : Config)
    (named : Option String) : Except RunError (List ExperimentEstimates) :=
  let names := attemptedExperiments store config named
  if names.isEmpty then .error (.nothingToEstimate path)
  else
    names.mapM fun name =>
      (estimateExperiment store config config.estimator.estimator name).mapError
        (.notEstimated name)

/-- Write the reports of a run into a directory and show its summary. -/
def Report.plan (r : Report) (directory : String) : Plan :=
  let json := childPath directory "estimates.json"
  let text := childPath directory "report.txt"
  { steps :=
      [.createDirectory directory,
       .writeFile json r.jsonText.toUTF8 (.jsonReportNotWritten json),
       .writeFile text r.text.toUTF8 (.textReportNotWritten text)]
    output := r.summary }

/-- Estimate the experiments of a store and write the reports. -/
def estimatePlan (path : String) (store : Store) (config : Config) (named : Option String)
    (directory time : String) : Except RunError Plan := do
  let experiments ← estimateAttempted path store config named
  let report : Report :=
    { time := time
      store := path
      method := config.estimator.method
      workers := config.estimator.workers
      experiments := experiments }
  return report.plan directory

/-! ## §4. Generating -/

/-- The time of the first synthetic sample: 2023-11-14T22:13:20Z. -/
def synthStart : Instant :=
  .ofSeconds 1700000000 (by decide)

/-- The shape of the synthetic experiment that is asked for. -/
def SynthRequest.spec (r : SynthRequest) (selection : SelectionSettings) : SynthSpec where
  experiment := UInt64.ofNat r.id
  links := r.links
  samplesPerLink := r.samples
  bandwidth := r.bandwidth
  selection := selection
  start := synthStart

/-- Generate a dump and write it. -/
def synthPlan (config : Config) (r : SynthRequest) : Except RunError Plan := do
  let some profile := config.profile? r.experiment
    | throw (.noProfile r.experiment)
  let generation := generateDump r.experiment profile (r.spec config.selection)
  let (dump, _) ←
    (generation.run (ChaCha.ofSeed (UInt64.ofNat r.seed))).mapError .notGenerated
  return { steps := [dumpStep r.out dump] }

/-! ## §5. Commands -/

/-- The settings given among the options of a command. -/
def Invocation.overrides (i : Invocation) : Overrides where
  workers := i.threads
  method :=
    match i.command with
    | .estimate _ method _ => method
    | _ => none

/-- The paths at which a command may look for a file. -/
def Invocation.sources (i : Invocation) : List String :=
  i.config.toList ++
    match i.command with
    | .synth _ => []
    | _ => [i.store]

/-- The store that a command works on, as it is in its file. -/
def Invocation.store? (i : Invocation) (contentOf : String → PathContent) :
    Except RunError Store :=
  (openStore i.store (contentOf i.store)).mapError .file

/-- What a command is going to do, given what is found at paths and the time. -/
def Invocation.plan (i : Invocation) (contentOf : String → PathContent) (time : String) :
    Except RunError Plan := do
  let config ← (loadConfigOr i.config contentOf).mapError .config
  match i.command with
  | .estimate named _ directory =>
    let config ← (config.override i.overrides).mapError fun e => .config (.invalid e)
    let store ← i.store? contentOf
    estimatePlan i.store (store.withRecompute config.selection.recompute) config named
      directory time
  | .summary =>
    let store ← i.store? contentOf
    return { output := store.summary config }
  | .snapshot out =>
    let store ← i.store? contentOf
    return { steps := [snapshotStep out store.toDump] }
  | .synth request => synthPlan config request

/-! ## §6. Carrying out -/

/-- The tree after a step, if the step can be done. -/
def PlanStep.perform? (t : FileTree) : PlanStep → Option FileTree
  | .createDirectory path => t.createDirectories? path
  | .writeFile path bytes _ => t.write? path bytes

/-- The tree after the steps, up to the first one that cannot be done, and its error. -/
def performSteps (t : FileTree) : List PlanStep → FileTree × Option RunError
  | [] => (t, none)
  | step :: rest =>
    match step.perform? t with
    | some t => performSteps t rest
    | none => (t, some step.failure)

/-- What a run shows and leaves behind. A run that never ends shows nothing and changes no
file; it is counted among the breakdowns. -/
structure RunResult where
  /-- Zero for success, one for an error, two for a rejected command line and 101 for a
  breakdown. -/
  exitCode : Nat
  output : String
  /-- The message of the error, if there is one. -/
  error : Option String
  tree : FileTree

/-- The result of a run that failed. -/
def RunResult.failed (t : FileTree) (error : RunError) : RunResult :=
  if error.isBreakdown then ⟨101, "", none, t⟩ else ⟨1, "", some error.message, t⟩

/-- Carry out a plan on a tree. -/
def Plan.perform (p : Plan) (t : FileTree) : RunResult :=
  match performSteps t p.steps with
  | (t, none) => ⟨0, p.output, none, t⟩
  | (t, some error) => .failed t error

/-- The line that tells the version. -/
def versionLine : String := "pgm-abw 0.1.0\n"

/-- The text that tells how to use the program. -/
def helpText : String :=
  joinLines
    ["Robust probe-gap-model available bandwidth estimation", "",
     "Usage: pgm-abw [OPTIONS] <COMMAND>", "",
     "Commands:",
     "  estimate  Estimate available bandwidth per link observation",
     "  summary   Show measurement store statistics",
     "  snapshot  Write the measurement store as a compressed snapshot",
     "  synth     Generate a synthetic measurement store for one experiment",
     "  help      Show this text", ""]

/-- Carry out a command line on a tree. -/
def runCommandLine (arguments : List String) (t : FileTree) (time : String) : RunResult :=
  match Request.ofArguments arguments with
  | .rejected => ⟨2, "", none, t⟩
  | .version => ⟨0, versionLine, none, t⟩
  | .help => ⟨0, helpText, none, t⟩
  | .run invocation =>
    match invocation.plan t.content time with
    | .ok plan => plan.perform t
    | .error error => .failed t error

end ProbeGap
