import Rulebook.Model.Domain
import Rulebook.Decision
import Rulebook.TextMap

/-!
# Proof obligations

An obligation says that a decision yields a valid output for every assignment of its unknowns
that meets the constraints.
-/

namespace Rulebook

/-- The admissible values of a parameter. -/
inductive Constraint where
  | boolean
  /-- Bounds that are themselves admissible; a missing one leaves its side open. -/
  | range (min max : Option Int64)
  | oneOf (values : List Int64)
deriving DecidableEq, Repr

def Constraint.text : Constraint → String
  | .boolean => "boolean"
  | .range min max =>
      let bound (side : String) : Option Int64 → String
        | none => side
        | some value => toString value.toInt
      "range [" ++ bound "-inf" min ++ ", " ++ bound "+inf" max ++ "]"
  | .oneOf values =>
      "one of \x7b" ++ ", ".intercalate (values.map fun value => toString value.toInt) ++ "\x7d"

/-- What a variable ranges over. -/
inductive ValueSort where
  | bool
  | int
deriving DecidableEq, Repr

structure Variable where
  name : String
  sort : ValueSort
  /-- False for a name that conditions read although it is no parameter. -/
  isParameter : Bool
deriving DecidableEq, Repr

inductive ObligationError where
  | unknownParameter (name : String)
  | sortMismatch (parameter : Parameter) (constraint : Constraint)
deriving DecidableEq, Repr

def ObligationError.message : ObligationError → String
  | .unknownParameter name => "constraint on `" ++ name ++ "`, which is not a parameter"
  | .sortMismatch parameter constraint =>
      constraint.text ++ " constraint does not fit " ++ parameter.domain.text ++ " parameter `" ++
        parameter.name ++ "`"

structure Obligation where
  functionName : String
  unknowns : List Variable
  decision : Decision
  constraints : TextMap Constraint
  validOutputs : List Literal
deriving DecidableEq, Repr

namespace Model

/-- The sort that the use of a name suggests; without any, numbers. -/
def usageSort (model : Model) (name : String) : ValueSort :=
  let usage := Usage.scan name model.conditions
  if !usage.intCompared && (usage.truthTested || usage.boolCompared) then .bool else .int

/-- The sort of a parameter under a constraint, which has to fit its domain. -/
def parameterSort (model : Model) (parameter : Parameter) (constraint : Option Constraint) :
    Except ObligationError ValueSort :=
  match constraint, parameter.domain with
  | some .boolean, .range _ _ => .error (.sortMismatch parameter .boolean)
  | some (.range min max), .boolean => .error (.sortMismatch parameter (.range min max))
  | some (.oneOf values), .boolean => .error (.sortMismatch parameter (.oneOf values))
  | some .boolean, _ => .ok .bool
  | some _, _ => .ok .int
  | none, .boolean => .ok .bool
  | none, .range _ _ => .ok .int
  | none, .untyped => .ok (model.usageSort parameter.name)

/-- The unknowns of the given parameters, or the first mismatch. -/
def parameterVariables (model : Model) (constraints : TextMap Constraint) :
    List Parameter → Except ObligationError (List Variable)
  | [] => .ok []
  | parameter :: rest =>
      match model.parameterSort parameter (constraints.get? parameter.name) with
      | .error error => .error error
      | .ok sort =>
          (parameterVariables model constraints rest).map (⟨parameter.name, sort, true⟩ :: ·)

/-- The names that the conditions read although they are no parameters, in order. -/
def freeNames (model : Model) : List String :=
  (SortedSet.ofList Text.compareText (model.conditions.flatMap Condition.names)).filter
    fun name => (model.parameter? name).isNone

/-- The obligation that the model yields a valid output wherever the constraints are met. -/
def obligation (model : Model) (constraints : TextMap Constraint) (valid : List Literal) :
    Except ObligationError Obligation :=
  match constraints.keys.find? fun name => (model.parameter? name).isNone with
  | some name => .error (.unknownParameter name)
  | none =>
      match model.parameterVariables constraints model.parameters with
      | .error error => .error error
      | .ok parameters =>
          let free := model.freeNames.map fun name => ⟨name, model.usageSort name, false⟩
          .ok
            { functionName := model.functionName
              unknowns := parameters ++ free
              decision := .ofRules model.rules
              constraints
              validOutputs := firstOccurrences valid }

end Model

namespace Obligation

def parameters (obligation : Obligation) : List Variable :=
  obligation.unknowns.filter Variable.isParameter

def isValidOutput (obligation : Obligation) (output : Literal) : Bool :=
  obligation.validOutputs.contains output

end Obligation

end Rulebook
