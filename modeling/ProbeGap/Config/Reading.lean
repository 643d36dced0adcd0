import ProbeGap.Config.Validation
import ProbeGap.Files.Path
import ProbeGap.Numeric.Count
import ProbeGap.Numeric.Reading
import ProbeGap.Time.Reading
import ProbeGap.Yaml.Node

/-!
# Configuration files

A configuration is written in YAML. Each section is a mapping with known keys; a section
and each of its settings may be left out and then has its default, but the experiments and
their capacities must be given. An empty section counts as a mapping without keys.

Unknown keys are passed over. A known key must not be repeated; of experiments with the
same name the last one counts. Numbers and truth values are never quoted.

Of YAML a part is known (`ProbeGap.Yaml.Token`): texts with anchors, aliases, tags, directives
or block scalars are refused, whatever they say.

`Config.ofText?` reads a text; `loadConfig` reads a file and validates what it says.
-/

namespace ProbeGap

/-! ## §1. Scalars -/

namespace Yaml.Node

/-- The text of a scalar. -/
def text? : Node → Option String
  | .scalar _ text => some text
  | _ => none

/-- The text of a scalar that is not quoted. -/
def plainText? : Node → Option String
  | .scalar true text => some text
  | _ => none

/-- The words for infinity. -/
def infinityWords : List String := [".inf", ".Inf", ".INF"]

/-- The words for not-a-number. -/
def nanWords : List String := [".nan", ".NaN", ".NAN"]

/-- The double of a text without a sign. A number must not be beyond all doubles. -/
def unsignedFloat? (s : List Char) : Option Float :=
  if infinityWords.contains (String.ofList s) then some (1 / 0)
  else (unsignedDouble? s).filter Float.isFinite

/-- A double. -/
def float? (n : Node) : Option Float := do
  let text ← n.plainText?
  if nanWords.contains text then return 0 / 0
  else signedDouble? unsignedFloat? text.toList

/-- The value of digits to a base. -/
def valueInBase? (base : Nat) (ds : List Char) : Option Nat := do
  let values ← ds.mapM hexValue?
  if values.isEmpty || values.any (base ≤ ·) then none
  else some (values.foldl (fun n d => n * base + d) 0)

/-- The number of a text without a sign: decimal without leading zeros, or to the base
that two characters before the digits tell. -/
def unsignedNumber? : List Char → Option Nat
  | '0' :: 'x' :: ds => valueInBase? 16 ds
  | '0' :: 'o' :: ds => valueInBase? 8 ds
  | '0' :: 'b' :: ds => valueInBase? 2 ds
  | '0' :: _ :: _ => none
  | ds => valueInBase? 10 ds

/-- A count of 64 bits. It may have a plus sign. -/
def count? (n : Node) : Option Nat := do
  let text ← n.plainText?
  let value ← match text.toList with
    | '+' :: rest => unsignedNumber? rest
    | rest => unsignedNumber? rest
  if value < countLimit then some value else none

/-- A truth value. -/
def truth? (n : Node) : Option Bool := do
  let text ← n.plainText?
  if ["true", "True", "TRUE"].contains text then some true
  else if ["false", "False", "FALSE"].contains text then some false
  else none

/-- Whether a scalar says that there is nothing. -/
def isNull (n : Node) : Bool :=
  n.plainText?.any ["", "~", "null", "Null", "NULL"].contains

/-! ## §2. Sections -/

/-- The members of a section with known keys, which must not be repeated. -/
def fields? (known : List String) : Node → Option (List (String × Node))
  | .mapping members => do
    let members ← members.mapM fun (key, value) => key.text?.map (·, value)
    let members := members.filter fun m => known.contains m.1
    if (members.map (·.1)).Nodup then some members else none
  | .scalar true "" => some []
  | _ => none

end Yaml.Node

open Yaml (Node)

/-- Members of a section. -/
abbrev Fields := List (String × Node)

/-- Read a setting that must be given. -/
def Fields.read? (fields : Fields) (key : String) (read? : Node → Option α) : Option α := do
  read? (← fields.lookup key)

/-- Read a setting that has a default. -/
def Fields.readOr? (fields : Fields) (key : String) (default : α) (read? : Node → Option α) :
    Option α :=
  match fields.lookup key with
  | some node => read? node
  | none => some default

/-! ## §3. Configurations -/

/-- A fit method. -/
def FitMethod.ofNode? (n : Node) : Option FitMethod :=
  n.text?.bind FitMethod.ofName?

/-- An instant. -/
def Instant.ofNode? (n : Node) : Option Instant :=
  n.text?.bind Instant.ofText?

/-- A window. -/
def TimeWindow.ofNode? (n : Node) : Option TimeWindow := do
  let fields : Fields ← n.fields? ["start", "end"]
  let start ← fields.read? "start" Instant.ofNode?
  let stop ← fields.read? "end" Instant.ofNode?
  return ⟨start, stop⟩

/-- A window, or none. -/
def optionalWindow? (n : Node) : Option (Option TimeWindow) :=
  if n.isNull then some none else (TimeWindow.ofNode? n).map some

/-- The capacities of an experiment. -/
def Profile.ofNode? (n : Node) : Option Profile := do
  let fields : Fields ← n.fields? ["capacity", "max_capacity"]
  let capacity ← fields.read? "capacity" Node.float?
  let maxCapacity ← fields.read? "max_capacity" Node.float?
  return ⟨capacity, maxCapacity⟩

/-- The table of experiments. -/
def experiments? : Node → Option (Table String Profile)
  | .mapping members => do
    let entries ← members.mapM fun (key, value) => do
      let name ← key.text?
      let profile ← Profile.ofNode? value
      return (name, profile)
    return .ofList entries
  | .scalar true "" => some .empty
  | _ => none

/-- The settings of the estimator. -/
def EstimatorSettings.ofNode? (n : Node) : Option EstimatorSettings := do
  let fields : Fields ← n.fields?
    ["method", "workers", "max_iterations", "tolerance", "huber_t", "slope_epsilon"]
  let d : EstimatorSettings := {}
  let method ← fields.readOr? "method" d.method FitMethod.ofNode?
  let workers ← fields.readOr? "workers" d.workers Node.count?
  let maxIterations ← fields.readOr? "max_iterations" d.maxIterations Node.count?
  let tolerance ← fields.readOr? "tolerance" d.tolerance Node.float?
  let threshold ← fields.readOr? "huber_t" d.threshold Node.float?
  let slopeEpsilon ← fields.readOr? "slope_epsilon" d.slopeEpsilon Node.float?
  return ⟨method, workers, maxIterations, tolerance, threshold, slopeEpsilon⟩

/-- The settings of the selection. -/
def SelectionSettings.ofNode? (n : Node) : Option SelectionSettings := do
  let fields : Fields ← n.fields?
    ["probe_packet_size", "min_confidence", "recompute_candidates", "window"]
  let d : SelectionSettings := {}
  let packetSize ← fields.readOr? "probe_packet_size" d.packetSize Node.float?
  let minConfidence ← fields.readOr? "min_confidence" d.minConfidence Node.float?
  let recompute ← fields.readOr? "recompute_candidates" d.recompute Node.truth?
  let window ← fields.readOr? "window" d.window optionalWindow?
  return ⟨packetSize, minConfidence, recompute, window⟩

/-- A configuration. -/
def Config.ofNode? (n : Node) : Option Config := do
  let fields : Fields ← n.fields? ["estimator", "selection", "experiments"]
  let estimator ← fields.readOr? "estimator" {} EstimatorSettings.ofNode?
  let selection ← fields.readOr? "selection" {} SelectionSettings.ofNode?
  let experiments ← fields.read? "experiments" experiments?
  return ⟨estimator, selection, experiments⟩

/-- The configuration in a text. -/
def Config.ofText? (text : String) : Option Config :=
  (Node.ofText? text).bind Config.ofNode?

/-! ## §4. Files -/

/-- Why a configuration could not be loaded. -/
inductive ConfigError where
  | notOpened (path : String)
  | notParsed (path : String)
  | invalid (error : ValidationError)
  deriving DecidableEq

/-- The message of an error. -/
def ConfigError.message : ConfigError → String
  | .notOpened path => "Failed to open configuration '" ++ path ++ "'"
  | .notParsed path => "Failed to parse configuration '" ++ path ++ "'"
  | .invalid error => error.message

/-- The configuration in a file, before validation. -/
def readConfig (path : String) (content : PathContent) : Except ConfigError Config :=
  match content with
  | .nothing => .error (.notOpened path)
  | content =>
    match content.text?.bind Config.ofText? with
    | some config => .ok config
    | none => .error (.notParsed path)

/-- The valid configuration in a file. -/
def loadConfig (path : String) (content : PathContent) : Except ConfigError Config := do
  let config ← readConfig path content
  config.validate.mapError .invalid
  return config

/-- The configuration in a file if one is given, else the built-in one. -/
def loadConfigOr (path : Option String) (contentOf : String → PathContent) :
    Except ConfigError Config :=
  match path with
  | some path => loadConfig path (contentOf path)
  | none => .ok .builtIn

end ProbeGap
