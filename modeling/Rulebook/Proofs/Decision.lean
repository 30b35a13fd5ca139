import Rulebook.Decision
import Rulebook.Proofs.FirstMatch

/-!
# What a rule list decides

The decision of a rule list goes through the conditions in order and stops at the first that does
not come out false. Rules behind that one play no part, and rules before it contribute nothing.
-/

namespace Rulebook

/-- Only the literal `true` is seen to match always. -/
@[simp]
theorem Condition.isTrue_iff {condition : Condition} :
    condition.isTrue = true ↔ condition = literal true := by
  cases condition <;> simp [isTrue]

def Rule.Holds (env : Env) (rule : Rule) : Prop := rule.condition.eval env = .ok true

theorem Rule.holds_iff {env : Env} {rule : Rule} :
    rule.Holds env ↔ rule.condition.truth env = some true :=
  Condition.truth_eq_some_iff.symm

instance (env : Env) (rule : Rule) : Decidable (rule.Holds env) :=
  decidable_of_iff _ Rule.holds_iff.symm

/-- All conditions of the rules have a truth value. -/
def Evaluable (env : Env) (rules : List Rule) : Prop :=
  ∀ rule ∈ rules, ∃ value, rule.condition.eval env = .ok value

private theorem evaluable_iff {env : Env} {rules : List Rule} :
    Evaluable env rules ↔ ∀ rule ∈ rules, (rule.condition.truth env).isSome := by
  simp only [Evaluable, Option.isSome_iff_exists, Condition.truth_eq_some_iff]

instance (env : Env) (rules : List Rule) : Decidable (Evaluable env rules) :=
  decidable_of_iff _ evaluable_iff.symm

namespace Decision

/-- A rule that always matches decides like any other whose condition holds. -/
theorem eval_ofRules_cons (env : Env) (rule : Rule) (rest : List Rule) :
    (ofRules (rule :: rest)).eval env =
      match rule.condition.eval env with
      | .error error => .error error
      | .ok true => .ok rule.result
      | .ok false => (ofRules rest).eval env := by
  rw [ofRules]
  by_cases catchAll : rule.isCatchAll = true
  · have always : rule.condition = .literal true := Condition.isTrue_iff.mp catchAll
    rw [if_pos catchAll, always]
    rfl
  · rw [if_neg catchAll]
    rfl

theorem eval_ofRules_of_false
    {env : Env} {rule : Rule} (isFalse : rule.condition.eval env = .ok false) (rest : List Rule) :
    (ofRules (rule :: rest)).eval env = (ofRules rest).eval env := by
  rw [eval_ofRules_cons, isFalse]

/-- The rest of a rule list only counts where the first condition comes out false. -/
theorem eval_ofRules_cons_congr
    {env : Env} {rule : Rule} {rest others : List Rule}
    (same : rule.condition.eval env = .ok false →
      (ofRules rest).eval env = (ofRules others).eval env) :
    (ofRules (rule :: rest)).eval env = (ofRules (rule :: others)).eval env := by
  rw [eval_ofRules_cons, eval_ofRules_cons]
  cases result : rule.condition.eval env with
  | error error => rfl
  | ok value =>
      cases value with
      | true => rfl
      | false => exact same result

/-- The decision is the result of the rule that is selected, or `None` where there is none. -/
theorem eval_ofRules (env : Env) (rules : List Rule) :
    (ofRules rules).eval env = (firstMatch env rules).map fun selected =>
      ((selected.bind (rules[·]?)).map Rule.result).getD (.value .none) := by
  induction rules with
  | nil => rfl
  | cons rule rest inductionHypothesis =>
      rw [eval_ofRules_cons, firstMatch, inductionHypothesis]
      cases rule.condition.eval env with
      | error error => rfl
      | ok value =>
          cases value with
          | true => rfl
          | false =>
              cases firstMatch env rest with
              | error error => rfl
              | ok selected => cases selected <;> rfl

/-- Where all conditions have a truth value, the first rule that holds decides. -/
theorem eval_ofRules_of_evaluable
    {env : Env} {rules : List Rule} (evaluable : Evaluable env rules) :
    (ofRules rules).eval env =
      .ok (((rules.find? fun rule => rule.Holds env).map Rule.result).getD (.value .none)) := by
  induction rules with
  | nil => rfl
  | cons rule rest inductionHypothesis =>
      rw [Evaluable, List.forall_mem_cons] at evaluable
      obtain ⟨⟨value, evaluated⟩, restEvaluable⟩ := evaluable
      rw [eval_ofRules_cons, evaluated, List.find?_cons]
      cases value with
      | true =>
          have holds : rule.Holds env := evaluated
          rw [decide_eq_true holds]
          rfl
      | false =>
          have fails : ¬ rule.Holds env := by
            intro holds
            rw [Rule.Holds, evaluated] at holds
            cases holds
          rw [decide_eq_false fails]
          exact inductionHypothesis restEvaluable

end Decision

end Rulebook
