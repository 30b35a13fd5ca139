import Rulebook.Distinct
import Rulebook.Model.Basic

/-!
# Decisions

A rule list as one expression: the first condition chooses its result, or else the rest decides.
-/

namespace Rulebook

inductive Decision where
  | leaf (result : Literal)
  | branch (condition : Condition) (result : Literal) (otherwise : Decision)
deriving DecidableEq, Repr

namespace Decision

/-- The decision of a rule list. Rules after one that always matches are left out, and a list that
runs out decides for `None`. -/
def ofRules : List Rule → Decision
  | [] => .leaf (.value .none)
  | rule :: rest =>
      if rule.isCatchAll then .leaf rule.result
      else .branch rule.condition rule.result (ofRules rest)

/-- The rules before the first that always matches are branches, put from the right over its result
or over `None`. -/
theorem ofRules_eq_foldr (rules : List Rule) :
    ofRules rules =
      (rules.takeWhile fun rule => !rule.isCatchAll).foldr
        (fun rule otherwise => .branch rule.condition rule.result otherwise)
        (.leaf (((rules.find? Rule.isCatchAll).map Rule.result).getD (.value .none))) := by
  induction rules with
  | nil => rfl
  | cons rule rest inductionHypothesis =>
      rw [ofRules, inductionHypothesis]
      cases catchAll : rule.isCatchAll with
      | true => simp [catchAll]
      | false => simp [catchAll]

def eval (env : Env) : Decision → Except EvalError Literal
  | .leaf result => .ok result
  | .branch condition result otherwise =>
      match condition.eval env with
      | .error error => .error error
      | .ok true => .ok result
      | .ok false => eval env otherwise

/-- The results at the branches and the leaf. -/
def results : Decision → List Literal
  | .leaf result => [result]
  | .branch _ result otherwise => result :: results otherwise

/-- Every result once, in order of first appearance. -/
def outputs (decision : Decision) : List Literal := firstOccurrences decision.results

def conditions : Decision → List Condition
  | .leaf _ => []
  | .branch condition _ otherwise => condition :: conditions otherwise

/-- The text of a decision that stands behind another. -/
def innerText : Decision → String
  | .leaf result => result.text
  | .branch condition result otherwise =>
      "(" ++ condition.text ++ " ? " ++ result.text ++ " : " ++ innerText otherwise ++ ")"

def text : Decision → String
  | .leaf result => result.text
  | .branch condition result otherwise =>
      condition.text ++ " ? " ++ result.text ++ " : " ++ innerText otherwise

end Decision

end Rulebook
