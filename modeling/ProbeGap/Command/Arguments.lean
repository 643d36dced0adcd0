import ProbeGap.Estimate.Outcome
import ProbeGap.Numeric.Count
import ProbeGap.Numeric.Reading

/-!
# Command lines

A command line names one command, with options before and behind it. General options may
stand on either side; if one stands on both, the one behind counts. The other options
belong to their command and stand behind it.

An option is written `--name value`, `--name=value`, or with its letter as `-l value`,
`-lvalue` or `-l=value`. A value that starts with a minus sign needs one of the forms in
which it is joined to the option. No option is given twice on the same side.

Command lines are judged from left to right, so the first thing that is wrong counts, and
a wish for help or for the version counts if it comes before that.

## Contents

  * `Command`, `Invocation`: what is to be done.
  * `OptionKey`, `OptionRule`: the options, and what their values must be.
  * `readOptions`: the options on one side of the command.
  * `Request.ofArguments`: a command line as a whole.
-/

namespace ProbeGap

/-! ## §1. Invocations -/

/-- What is asked of a synthetic store on the command line. -/
structure SynthRequest where
  experiment : String
  id : Nat := 1
  links : Nat := 100
  samples : Nat := 200
  seed : Nat := 1
  bandwidth : Float
  out : String

/-- A command with its options. -/
inductive Command where
  | estimate (experiment : Option String) (method : Option FitMethod) (output : String)
  | summary
  | snapshot (out : String)
  | synth (request : SynthRequest)

/-- A command with the general options. -/
structure Invocation where
  config : Option String := none
  store : String := "measurements.json"
  logLevel : String := "info"
  threads : Option Nat := none
  command : Command

/-- What a command line asks for. -/
inductive Request where
  | run (invocation : Invocation)
  | version
  | help
  | rejected

/-! ## §2. Options -/

/-- An option. -/
inductive OptionKey where
  | config | store | logLevel | threads
  | experiment | method | output | out
  | id | links | samples | seed | abw
  deriving DecidableEq, Repr

/-- The name of an option. -/
def OptionKey.name : OptionKey → String
  | .config => "config"
  | .store => "store"
  | .logLevel => "log-level"
  | .threads => "threads"
  | .experiment => "experiment"
  | .method => "method"
  | .output => "output"
  | .out => "out"
  | .id => "id"
  | .links => "links"
  | .samples => "samples"
  | .seed => "seed"
  | .abw => "abw"

/-- The options that may stand on either side of the command. -/
def generalOptions : List OptionKey := [.config, .store, .logLevel, .threads]

/-- The commands, without their options. -/
inductive CommandName where
  | estimate | summary | snapshot | synth
  deriving DecidableEq, Repr

/-- The command of a name. -/
def CommandName.ofName? : String → Option CommandName
  | "estimate" => some .estimate
  | "summary" => some .summary
  | "snapshot" => some .snapshot
  | "synth" => some .synth
  | _ => none

/-- The options that may stand in front of the command, or behind a command. -/
def optionsOf : Option CommandName → List OptionKey
  | none => generalOptions
  | some .estimate => generalOptions ++ [.experiment, .method, .output]
  | some .summary => generalOptions
  | some .snapshot => generalOptions ++ [.out]
  | some .synth =>
    generalOptions ++ [.experiment, .id, .links, .samples, .seed, .abw, .out]

/-- The letter of an option. -/
def OptionKey.letter? (command : Option CommandName) : OptionKey → Option Char
  | .config => some 'c'
  | .store => some 's'
  | .threads => some 'j'
  | .experiment => if command = some .estimate then some 'e' else none
  | .output => some 'o'
  | _ => none

/-- A count of 64 bits: digits, which may have a plus sign. -/
def readCount? (s : String) : Option Nat :=
  let ds := match s.toList with
    | '+' :: rest => rest
    | rest => rest
  if ds.isEmpty || !ds.all Char.isDigit then none
  else
    let value := valueOfDigits ds
    if value < countLimit then some value else none

/-- The double of a text without a sign, in digits or in words of any case. -/
def unsignedArgument? (s : List Char) : Option Float :=
  match String.ofList (s.map Char.toLower) with
  | "inf" | "infinity" => some (1 / 0)
  | "nan" => some (0 / 0)
  | _ => unsignedDouble? s

/-- The double of an argument. -/
def readDouble? (s : String) : Option Float :=
  signedDouble? unsignedArgument? s.toList

/-- Whether a text can be the value of an option: paths are not empty, and numbers and
methods are written as such. -/
def OptionKey.accepts (key : OptionKey) (value : String) : Bool :=
  match key with
  | .config | .store | .output | .out => value != ""
  | .logLevel | .experiment => true
  | .threads | .id | .links | .samples | .seed => (readCount? value).isSome
  | .method => (FitMethod.ofName? value).isSome
  | .abw => (readDouble? value).isSome

/-! ## §3. One side of the command -/

/-- The values of options. -/
abbrev OptionValues := List (OptionKey × String)

/-- What an argument is. -/
inductive Argument where
  /-- An option, with the value that is joined to it. -/
  | option (key : OptionKey) (value : Option String)
  | help
  | version
  /-- The mark that ends the options. -/
  | optionsEnd
  /-- A word that is no option. -/
  | word (text : String)
  | unknown

/-- An argument that starts with two minus signs, by what follows them. -/
def Argument.ofName (command : Option CommandName) (s : List Char) : Argument :=
  let (name, rest) := s.span (· != '=')
  let value := match rest with
    | [] => none
    | _ :: value => some (String.ofList value)
  let name := String.ofList name
  match (optionsOf command).find? (·.name == name), value with
  | some key, value => .option key value
  | none, none =>
    if name == "help" then .help
    else if name == "version" && command.isNone then .version
    else .unknown
  | none, some _ => .unknown

/-- An argument that starts with one minus sign, by what follows it. -/
def Argument.ofLetter (command : Option CommandName) (letter : Char) (rest : List Char) :
    Argument :=
  match (optionsOf command).find? fun key => key.letter? command == some letter with
  | some key =>
    .option key
      (match rest with
        | [] => none
        | '=' :: value => some (String.ofList value)
        | value => some (String.ofList value))
  | none =>
    if letter == 'h' then .help
    else if letter == 'V' && command.isNone then .version
    else .unknown

/-- What an argument is, in front of the command or behind it. -/
def Argument.ofText (command : Option CommandName) (text : String) : Argument :=
  match text.toList with
  | ['-'] => .word text
  | ['-', '-'] => .optionsEnd
  | '-' :: '-' :: rest => .ofName command rest
  | '-' :: letter :: rest => .ofLetter command letter rest
  | _ => .word text

/-- Why the arguments on one side of the command are not just options. -/
inductive Stop where
  | help
  | version
  | rejected
  deriving DecidableEq, Repr

/-- Add the value of an option, which is acceptable and the first one. -/
def addValue (values : OptionValues) (key : OptionKey) (value : String) :
    Except Stop OptionValues :=
  if (values.lookup key).isSome || !key.accepts value then .error .rejected
  else .ok ((key, value) :: values)

/-- Read the options on one side of the command, up to the first word; what is left are
the word and what follows it. -/
def readOptions (command : Option CommandName) (values : OptionValues) :
    List String → Except Stop (OptionValues × List String)
  | [] => .ok (values, [])
  | argument :: rest =>
    match Argument.ofText command argument, rest with
    | .option key (some value), rest => do
      readOptions command (← addValue values key value) rest
    | .option key none, value :: rest =>
      match Argument.ofText command value with
      | .word value => do readOptions command (← addValue values key value) rest
      | _ => .error .rejected
    | .option _ none, [] => .error .rejected
    | .help, _ => .error .help
    | .version, _ => .error .version
    | .optionsEnd, [] => .ok (values, [])
    | .optionsEnd, _ :: _ => .error .rejected
    | .word text, rest => .ok (values, text :: rest)
    | .unknown, _ => .error .rejected

/-! ## §4. Command lines -/

/-- The number that is the value of an option, or a default. -/
def OptionValues.count (values : OptionValues) (key : OptionKey) (default : Nat) : Nat :=
  ((values.lookup key).bind readCount?).getD default

/-- The command with the given options, if those that it needs are there. -/
def Command.ofOptions? (values : OptionValues) : CommandName → Option Command
  | .estimate =>
    some (.estimate (values.lookup .experiment)
      ((values.lookup .method).bind FitMethod.ofName?)
      ((values.lookup .output).getD "abw_output"))
  | .summary => some .summary
  | .snapshot => (values.lookup .out).map .snapshot
  | .synth => do
    let experiment ← values.lookup .experiment
    let bandwidth ← (values.lookup .abw).bind readDouble?
    let out ← values.lookup .out
    return .synth
      { experiment := experiment
        id := values.count .id 1
        links := values.count .links 100
        samples := values.count .samples 200
        seed := values.count .seed 1
        bandwidth := bandwidth
        out := out }

/-- The invocation with the given options, those behind the command first. -/
def Invocation.ofOptions (values : OptionValues) (command : Command) : Invocation where
  config := values.lookup .config
  store := (values.lookup .store).getD "measurements.json"
  logLevel := (values.lookup .logLevel).getD "info"
  threads := (values.lookup .threads).bind readCount?
  command := command

/-- What help can be asked for. -/
def topics : List (List String) :=
  [["estimate"], ["summary"], ["snapshot"], ["synth"], ["help"]]

/-- Read a command line up to the first thing that is wrong. -/
def readRequest (arguments : List String) : Except Stop Invocation := do
  let (before, rest) ← readOptions none [] arguments
  match rest with
  | [] => throw .rejected
  | "help" :: topic =>
    throw (if topic.isEmpty || topics.contains topic then .help else .rejected)
  | word :: rest =>
    let some name := CommandName.ofName? word
      | throw .rejected
    let (behind, rest) ← readOptions (some name) [] rest
    let some command := Command.ofOptions? behind name
      | throw .rejected
    -- Values behind the command are found first.
    if rest.isEmpty then return .ofOptions (behind ++ before) command
    else throw .rejected

/-- What a command line asks for. -/
def Request.ofArguments (arguments : List String) : Request :=
  match readRequest arguments with
  | .ok invocation => .run invocation
  | .error .help => .help
  | .error .version => .version
  | .error .rejected => .rejected

end ProbeGap
