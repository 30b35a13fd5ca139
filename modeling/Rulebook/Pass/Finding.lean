import Rulebook.Model.Basic

/-!
# Findings

What the passes over a model report about its rules.
-/

namespace Rulebook

/-- A rule that an earlier rule with the same result already covers. -/
structure Redundancy where
  rule : Nat
  coveredBy : Nat
  result : Literal
  /-- The normal form of the earlier condition. -/
  covering : Condition
  /-- The normal form of the later condition. -/
  covered : Condition
deriving DecidableEq, Repr

def Redundancy.justification (redundancy : Redundancy) : String :=
  "returns " ++ redundancy.result.text ++ " like rule " ++ toString redundancy.coveredBy ++
    ", whose condition `" ++ redundancy.covering.text ++ "` already covers `" ++
    redundancy.covered.text ++ "`"

inductive Finding where
  /-- The condition of the rule simplifies to false. -/
  | neverTrue (rule : Nat) (condition : Condition)
  /-- The condition of the rule simplifies to true, and other rules follow it. -/
  | alwaysTrue (rule : Nat) (condition : Condition)
  /-- The merged rule, whose first member is given, hides that many later groups. -/
  | hides (rule : Nat) (result : Literal) (groups : Nat)
  | redundant (redundancy : Redundancy)
deriving DecidableEq, Repr

namespace Finding

/-- The name of the pass that reports the finding. -/
def pass : Finding → String
  | .neverTrue _ _ | .alwaysTrue _ _ => "simplify"
  | .hides _ _ _ => "merge"
  | .redundant _ => "redundancy"

/-- The rule that the finding is about, by its index in the input of the pass. -/
def rule : Finding → Nat
  | .neverTrue rule _ | .alwaysTrue rule _ | .hides rule _ _ => rule
  | .redundant redundancy => redundancy.rule

def message : Finding → String
  | .neverTrue _ condition => "condition `" ++ condition.text ++ "` is never true"
  | .alwaysTrue _ condition =>
      "condition `" ++ condition.text ++ "` is always true; later rules are unreachable"
  | .hides _ result groups =>
      "merged rule returning " ++ result.text ++ " always matches; " ++ toString groups ++
        " later group(s) become unreachable"
  | .redundant redundancy => redundancy.justification

def text (finding : Finding) : String :=
  finding.pass ++ ": rule " ++ toString finding.rule ++ ": " ++ finding.message

end Finding

end Rulebook
