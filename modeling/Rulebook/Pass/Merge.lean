import Rulebook.Distinct
import Rulebook.Pass.Finding

/-!
# Merging

All rules with the same result become one rule, at the place of the first of them, whose condition
is the disjunction of theirs. Moving rules up in this way keeps the decision only where the merged
conditions do not overlap with those in between.
-/

namespace Rulebook

/-- The results of a list of rules in order of first appearance. -/
def resultsOf (rules : List Rule) : List Literal := firstOccurrences (rules.map Rule.result)

/-- The conditions under which a list of rules names a result. -/
def conditionsFor (result : Literal) (rules : List Rule) : List Condition :=
  (rules.filter fun rule => rule.result = result).map Rule.condition

/-- The condition of a group of rules. A member that always matches makes the group do so. -/
def groupCondition (members : List Condition) : Condition :=
  if members.any Condition.isTrue then .literal true else .join .or members

/-- One rule for each result. -/
def mergeRules (rules : List Rule) : List Rule :=
  (resultsOf rules).map fun result => ⟨groupCondition (conditionsFor result rules), result⟩

/-- The merged rules that always match although other groups follow. -/
def mergeFindings (rules : List Rule) : List Finding :=
  let merged := mergeRules rules
  merged.zipIdx.filterMap fun (group, position) =>
    if group.condition.isTrue && position + 1 < merged.length then
      some (.hides (rules.findIdx fun rule => rule.result = group.result) group.result
        (merged.length - position - 1))
    else none

def Model.merge (model : Model) : Model := model.withRules (mergeRules model.rules)

end Rulebook
