import Rulebook.Obligation.Basic
import Rulebook.Text.Blank
import Rulebook.Text.Split

/-!
# Values on the command line

How bounds, value sets and outputs are written as arguments.
-/

namespace Rulebook.CommandLine

/-- Why a constraint cannot be read from an argument. -/
inductive ConstraintFault where
  /-- No name is set apart from what follows it. -/
  | noName (form argument : String)
  /-- The two bounds are not set apart. -/
  | noBounds (bounds : String)
  | badBound (bound : String) (cause : Text.IntegerError)
  | badValue (value : String) (cause : Text.IntegerError)
deriving DecidableEq, Repr

def ConstraintFault.message : ConstraintFault → String
  | .noName form argument => "expected `" ++ form ++ "`, got `" ++ argument ++ "`"
  | .noBounds bounds => "expected `lo..hi`, got `" ++ bounds ++ "`"
  | .badBound bound cause => "bad bound `" ++ bound ++ "`: " ++ cause.message
  | .badValue value cause => "bad value `" ++ value ++ "`: " ++ cause.message

/-- A name and what is said of it. -/
abbrev NamedConstraint := String × Constraint

/-- A bound; none where the text is blank. An upper bound may be marked as inclusive, which it is
anyway. -/
def readBound (chars : List Char) : Except ConstraintFault (Option Int64) :=
  let bound := String.ofList ((Text.trimChars chars).dropWhile (· = '='))
  if bound.isEmpty then .ok none
  else
    match Text.readInt64 bound with
    | .ok value => .ok (some value)
    | .error cause => .error (.badBound bound cause)

def readBounds (chars : List Char) : Except ConstraintFault Constraint :=
  match Text.splitFirst? ['.', '.'] chars with
  | none => .error (.noBounds (String.ofList chars))
  | some (low, high) => do return .range (← readBound low) (← readBound high)

def readMember (chars : List Char) : Except ConstraintFault Int64 :=
  match Text.readInt64 (String.ofList (Text.trimChars chars)) with
  | .ok value => .ok value
  | .error cause => .error (.badValue (String.ofList chars) cause)

def readMembers (chars : List Char) : Except ConstraintFault Constraint := do
  return .oneOf (← (Text.splitEvery ',' chars).mapM readMember)

/-- A name, an equals sign and a constraint. -/
def readNamed (form : String) (read : List Char → Except ConstraintFault Constraint)
    (argument : String) : Except ConstraintFault NamedConstraint :=
  match Text.splitFirst? ['='] argument.toList with
  | none => .error (.noName form argument)
  | some (name, rest) => do
      let constraint ← read rest
      return (String.ofList (Text.trimChars name), constraint)

/-- Bounds, as in `load=0..100`. -/
def readRange : String → Except ConstraintFault NamedConstraint :=
  readNamed "name=lo..hi" readBounds

/-- A set of values, as in `mode=1,2,4`. -/
def readOneOf : String → Except ConstraintFault NamedConstraint :=
  readNamed "name=v1,v2,..." readMembers

/-- What stands between two marks that enclose a text. -/
def enclosed? (mark : Char) : List Char → Option (List Char)
  | [] => none
  | c :: rest => if c = mark ∧ rest.getLast? = some mark then some rest.dropLast else none

/-- An output: a constant, an integer, or else a string, whose quotes may be left out. -/
def readOutput (argument : List Char) : Literal :=
  let chars := Text.trimChars argument
  let text := String.ofList chars
  if text = "None" then .value .none
  else if text = "True" then .value (.bool true)
  else if text = "False" then .value (.bool false)
  else
    match Text.readInt64 text with
    | .ok value => .value (.int value)
    | .error _ =>
        let content := ((enclosed? '"' chars).or (enclosed? '\x27' chars)).getD chars
        .value (.string (String.ofList content))

/-- Outputs, with commas between them. -/
def readOutputs (argument : String) : List Literal :=
  (Text.splitEvery ',' argument.toList).map readOutput

end Rulebook.CommandLine
