import ProbeGap.Command.Plan
import Std.Time.DateTime.Timestamp

/-!
# The program

The outermost layer: it reads the command line, the files that the command may need and
the clock, lets the command make its plan, and carries the plan out on the file system.
-/

namespace ProbeGap

/-- What is found at a path of the file system. -/
def contentAt (path : String) : IO PathContent := do
  try
    return .file (← IO.FS.readBinFile path)
  catch
    | .noFileOrDirectory .. => return .nothing
    | .permissionDenied .. => return .nothing
    | _ => return .directory

/-- The present time, as text. -/
def presentTime : IO String := do
  let nanos := (← Std.Time.Timestamp.now).toNanosecondsSinceUnixEpoch.val
  let perSecond : Int := nanosPerSecond
  return match Instant.ofParts? (nanos / perSecond) (nanos % perSecond).toNat with
    | some t => t.runText
    | none => ""

/-- Carry out a step of a plan; whether it could be done. -/
def PlanStep.carryOut (step : PlanStep) : IO Bool := do
  try
    match step with
    | .createDirectory path => IO.FS.createDirAll path
    | .writeFile path bytes _ => IO.FS.writeBinFile path bytes
    return true
  catch _ => return false

/-- Carry out steps, up to the first one that cannot be done; its error. -/
def carryOutSteps : List PlanStep → IO (Option RunError)
  | [] => return none
  | step :: rest => do
    if ← step.carryOut then carryOutSteps rest else return some step.failure

/-- Report an error, and return the exit code for it. -/
def reportError (error : RunError) : IO UInt32 := do
  IO.eprintln ("Error: " ++ error.message)
  return if error.isBreakdown then 101 else 1

/-- Carry out a command. -/
def Invocation.carryOut (i : Invocation) : IO UInt32 := do
  let found ← i.sources.mapM fun path => return (path, ← contentAt path)
  let contentOf path := (found.lookup path).getD .nothing
  match i.plan contentOf (← presentTime) with
  | .error error => reportError error
  | .ok plan =>
    match ← carryOutSteps plan.steps with
    | some error => reportError error
    | none =>
      IO.print plan.output
      return 0

end ProbeGap

open ProbeGap in
/-- Run the program. -/
def main (arguments : List String) : IO UInt32 := do
  match Request.ofArguments arguments with
  | .rejected =>
    IO.eprint helpText
    return 2
  | .version =>
    IO.print versionLine
    return 0
  | .help =>
    IO.print helpText
    return 0
  | .run invocation => invocation.carryOut
