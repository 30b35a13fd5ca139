import Rulebook.Condition.Normal
import Rulebook.Pass.Finding

/-!
# Simplification

Every condition is replaced by its normal form. Rules that can never match are reported, and the
first rule that always matches although others follow it.
-/

namespace Rulebook

def Rule.simplify (rule : Rule) : Rule := { rule with condition := rule.condition.normalize }

/-- The findings about the rules from `index` on, of which one may have been reported to match
always. -/
def simplifyFindings (index : Nat) (reported : Bool) : List Rule → List Finding
  | [] => []
  | rule :: rest =>
      let condition := rule.condition.normalize
      if condition.isFalse then
        .neverTrue index rule.condition :: simplifyFindings (index + 1) reported rest
      else if condition.isTrue && !rest.isEmpty && !reported then
        .alwaysTrue index rule.condition :: simplifyFindings (index + 1) true rest
      else simplifyFindings (index + 1) reported rest

def Model.simplify (model : Model) : Model := model.withRules (model.rules.map Rule.simplify)

end Rulebook
