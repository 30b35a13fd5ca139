import Rulebook.Condition.Normal
import Rulebook.Pass.Finding

/-!
# Redundant rules

A rule is reported when an earlier rule has the same result and the operands of its normal
condition are all among those of the earlier one. How the operands are joined is not looked at.
-/

namespace Rulebook

/-- Every operand of the later condition is an operand of the earlier one, or all of it. -/
def Condition.covers (earlier later : Condition) : Bool :=
  later.topParts.all fun part => part = earlier ∨ part ∈ earlier.topParts

/-- The first of the given rules that covers a rule; all conditions are normal. -/
def coveringRule? (earlier : List Rule) (rule : Rule) : Option (Rule × Nat) :=
  earlier.zipIdx.find? fun (candidate, _) =>
    candidate.result = rule.result ∧ candidate.condition.covers rule.condition

/-- The rules that an earlier rule covers, each against the earliest that does. -/
def Model.redundancies (model : Model) : List Redundancy :=
  let normal := model.rules.map fun rule : Rule =>
    { rule with condition := rule.condition.normalize }
  normal.zipIdx.filterMap fun (rule, index) =>
    (coveringRule? (normal.take index) rule).map fun (covering, coveredBy) =>
      ⟨index, coveredBy, rule.result, covering.condition, rule.condition⟩

end Rulebook
