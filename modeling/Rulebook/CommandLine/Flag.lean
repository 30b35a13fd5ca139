import Rulebook.CommandLine.Value
import Rulebook.Config

/-!
# Flags

The commands, the flags that each of them knows, and what a flag does to the settings.
-/

namespace Rulebook.CommandLine

inductive Command where
  | extract
  | optimize
  | table
  | verify
  | smt
deriving DecidableEq, Repr

namespace Command

def all : List Command := [.extract, .optimize, .table, .verify, .smt]

def name : Command → String
  | .extract => "extract"
  | .optimize => "optimize"
  | .table => "table"
  | .verify => "verify"
  | .smt => "smt"

def about : Command → String
  | .extract => "Print the extracted IR model as JSON"
  | .optimize => "Run the optimizer passes and print the result as JSON"
  | .table => "Print the synthesized lookup table"
  | .verify => "Check that every admissible input yields a valid output"
  | .smt => "Print the SMT-LIB2 query `verify` would send to z3"

def ofName? (name : String) : Option Command :=
  all.find? fun command => command.name = name

/-- Whether a command is about a property, so that outputs must be given. -/
def needsOutputs : Command → Bool
  | .verify | .smt => true
  | _ => false

end Command

/-- Everything that arguments can say, apart from the command. -/
structure Settings where
  file : Option String := none
  config : Option String := none
  function : Option String := none
  strict : Bool := false
  sizeCutoff : Option Nat := none
  ranges : List NamedConstraint := []
  oneOf : List NamedConstraint := []
  booleans : List String := []
  valid : List Literal := []
  backend : Option Backend := none
  timeoutSeconds : Option Nat := none
  json : Bool := false
deriving DecidableEq, Repr

/-- The constraint on each name. Of several the last one counts, where bounds come first, then
value sets, then truth values. -/
def Settings.constraints (settings : Settings) : TextMap Constraint :=
  .ofList (settings.ranges ++ settings.oneOf ++
    settings.booleans.map fun name => (name, .boolean))

/-- Why the value of a flag is refused. -/
inductive ValueFault where
  | empty
  /-- The value is not among those that the flag takes. -/
  | notListed
  | malformed (reason : String)
deriving DecidableEq, Repr

/-- What a flag does. -/
inductive Action where
  /-- Takes a value, at most once. -/
  | set (assign : Settings → String → Except ValueFault Settings)
  /-- Takes a value, each time that it is given. -/
  | collect (assign : Settings → String → Except ValueFault Settings)
  /-- Takes no value, and stands at most once. -/
  | switch (assign : Settings → Settings)
  /-- Takes no value, and may be repeated. -/
  | count
  | help
  | version

def Action.takesValue : Action → Bool
  | .set _ | .collect _ => true
  | _ => false

structure Flag where
  long : String
  short : Option Char := none
  /-- How the value is called in messages, where the flag takes one. -/
  valueName : String := ""
  about : String := ""
  action : Action

/-- The flag as messages show it. -/
def Flag.display (flag : Flag) : String :=
  match flag.action with
  | .set _ | .collect _ => "--" ++ flag.long ++ " <" ++ flag.valueName ++ ">"
  | .count => "--" ++ flag.long ++ "..."
  | _ => "--" ++ flag.long

def readPath (path : String) : Except ValueFault String :=
  if path.isEmpty then .error .empty else .ok path

def readCount (text : String) : Except ValueFault Nat :=
  match Text.readNatural Text.word64Max text with
  | .ok value => .ok value
  | .error cause => .error (.malformed cause.message)

def readBackend (text : String) : Except ValueFault Backend :=
  match Backend.ofName? text with
  | some backend => .ok backend
  | none => .error (if text.isEmpty then .empty else .notListed)

def orMalformed {α : Type} : Except ConstraintFault α → Except ValueFault α
  | .ok value => .ok value
  | .error fault => .error (.malformed fault.message)

def configFlag : Flag where
  long := "config"
  valueName := "CONFIG"
  about := "Configuration file (TOML)"
  action := .set fun settings path => do
    return { settings with config := some (← readPath path) }

def verboseFlag : Flag where
  long := "verbose"
  short := some 'v'
  about := "More log output: -v info, -vv debug, -vvv trace"
  action := .count

def helpFlag : Flag where
  long := "help"
  short := some 'h'
  about := "Print help"
  action := .help

def versionFlag : Flag where
  long := "version"
  short := some 'V'
  about := "Print version"
  action := .version

def functionFlag : Flag where
  long := "function"
  short := some 'f'
  valueName := "FUNCTION"
  about := "Function to analyze; required when the file defines several"
  action := .set fun settings name => .ok { settings with function := some name }

def strictFlag : Flag where
  long := "strict"
  about := "Reject functions with a path that falls through without returning"
  action := .switch fun settings => { settings with strict := true }

def sizeCutoffFlag : Flag where
  long := "size-cutoff"
  valueName := "SIZE_CUTOFF"
  about := "Enumerate integer ranges up to this width"
  action := .set fun settings text => do
    return { settings with sizeCutoff := some (← readCount text) }

def rangeFlag : Flag where
  long := "range"
  valueName := "RANGES"
  about := "Integer bounds as `name=lo..hi`; either side may be left open"
  action := .collect fun settings text => do
    return { settings with ranges := settings.ranges ++ [← orMalformed (readRange text)] }

def oneOfFlag : Flag where
  long := "one-of"
  valueName := "ONE_OF"
  about := "Integer value set as `name=1,2,3`"
  action := .collect fun settings text => do
    return { settings with oneOf := settings.oneOf ++ [← orMalformed (readOneOf text)] }

def boolFlag : Flag where
  long := "bool"
  valueName := "NAME"
  about := "Boolean parameter"
  action := .collect fun settings name =>
    .ok { settings with booleans := settings.booleans ++ [name] }

def validFlag : Flag where
  long := "valid"
  valueName := "VALID"
  about := "Valid outputs as comma separated literals: `0,1,\"ok\",None`"
  action := .collect fun settings text =>
    .ok { settings with valid := settings.valid ++ readOutputs text }

def solverFlag : Flag where
  long := "solver"
  valueName := "SOLVER"
  about := "[possible values: z3, enumerate]"
  action := .set fun settings text => do
    return { settings with backend := some (← readBackend text) }

def timeoutFlag : Flag where
  long := "timeout"
  valueName := "TIMEOUT"
  about := "Time limit in seconds; 0 disables it"
  action := .set fun settings text => do
    return { settings with timeoutSeconds := some (← readCount text) }

def jsonFlag : Flag where
  long := "json"
  about := "Print the result as JSON"
  action := .switch fun settings => { settings with json := true }

/-- The flags that stand before a command. -/
def programFlags : List Flag := [configFlag, verboseFlag, helpFlag, versionFlag]

def Command.ownFlags : Command → List Flag
  | .extract => []
  | .optimize | .table => [sizeCutoffFlag]
  | .verify =>
      [rangeFlag, oneOfFlag, boolFlag, validFlag, solverFlag, timeoutFlag, jsonFlag]
  | .smt => [rangeFlag, oneOfFlag, boolFlag, validFlag]

/-- The flags that stand after a command. -/
def Command.flags (command : Command) : List Flag :=
  [configFlag, functionFlag, strictFlag, verboseFlag] ++ command.ownFlags ++ [helpFlag]

end Rulebook.CommandLine
