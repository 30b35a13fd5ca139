import Rulebook.Condition.Eval
import Rulebook.Condition.Order

/-!
# Rule models

The model of a decision function is an ordered list of rules. The first rule whose condition holds
is responsible for the result.
-/

namespace Rulebook

/-- The values that a parameter is expected to take. -/
inductive Domain where
  | boolean
  | range (min max : Int64)
  | untyped
deriving DecidableEq, Repr

def Domain.text : Domain → String
  | .boolean => "bool"
  | .range min max => "int[" ++ toString min.toInt ++ "..=" ++ toString max.toInt ++ "]"
  | .untyped => "opaque"

structure Parameter where
  name : String
  domain : Domain
deriving DecidableEq, Repr

structure Rule where
  condition : Condition
  result : Literal
deriving DecidableEq, Repr

/-- A rule that matches whatever the input. -/
def Rule.isCatchAll (rule : Rule) : Bool := rule.condition.isTrue

structure Model where
  functionName : String
  parameters : List Parameter
  rules : List Rule
deriving DecidableEq, Repr

/-- The index of the first rule whose condition holds. An error in a rule consulted before ends
the search. -/
def firstMatch (env : Env) : List Rule → Except EvalError (Option Nat)
  | [] => .ok none
  | rule :: rest =>
      match rule.condition.eval env with
      | .error error => .error error
      | .ok true => .ok (some 0)
      | .ok false => (firstMatch env rest).map (Option.map (· + 1))

namespace Model

/-- A model is total when its last rule matches whatever the input. -/
def isTotal (model : Model) : Bool := model.rules.getLast?.any Rule.isCatchAll

def parameter? (model : Model) (name : String) : Option Parameter :=
  model.parameters.find? fun parameter => parameter.name = name

def conditions (model : Model) : List Condition := model.rules.map Rule.condition

def withRules (model : Model) (rules : List Rule) : Model := { model with rules }

/-- One line for the signature and one for each rule. -/
def text (model : Model) : String :=
  let parameters := model.parameters.map fun parameter =>
    parameter.name ++ ": " ++ parameter.domain.text
  let rules := model.rules.zipIdx.map fun (rule, index) =>
    "  [" ++ toString index ++ "] " ++ rule.condition.text ++ " => " ++ rule.result.text ++ "\n"
  model.functionName ++ "(" ++ ", ".intercalate parameters ++ ")\n" ++ String.join rules

end Model

end Rulebook
