import Rulebook.LookupTable
import Rulebook.Model.Edit
import Rulebook.Proofs.FirstMatch

/-!
# What an edit can change

A rule is consulted only where the conditions of all rules before it come out false. So no input
notices a change to a rule, or its removal, if an earlier rule matches or fails under it; and an
added rule matters only where no other matches. A change to a rule is not noticed either where its
condition comes out as before: another result changes just the outcomes of the inputs that select
the rule, and a guard only those of inputs under which it does not hold.
-/

namespace Rulebook

/-- What stands behind rules that match or fail is not consulted. -/
theorem firstMatch_append_congr
    {env : Env} {front : List Rule} (settled : firstMatch env front ≠ .ok none)
    (rest others : List Rule) :
    firstMatch env (front ++ rest) = firstMatch env (front ++ others) := by
  rw [firstMatch_append, firstMatch_append]
  cases first : firstMatch env front with
  | error error => rfl
  | ok selected =>
      cases selected with
      | some index => rfl
      | none => exact absurd first settled

/-- Rules are selected by what their conditions come to. -/
theorem firstMatch_congr_eval
    {env : Env} {rules others : List Rule}
    (same : rules.map (·.condition.eval env) = others.map (·.condition.eval env)) :
    firstMatch env rules = firstMatch env others := by
  induction rules generalizing others with
  | nil =>
      rw [List.map_nil, eq_comm, List.map_eq_nil_iff] at same
      rw [same]
  | cons rule rest inductionHypothesis =>
      obtain ⟨other, remaining, rfl, isSame, restSame⟩ := List.map_eq_cons_iff.mp same.symm
      rw [firstMatch, firstMatch, isSame, inductionHypothesis restSame.symm]

namespace Model

variable {model edited : Model} {index : Nat} {env : Env} {change : Rule → Rule}

theorem modifyRule?_eq_some_iff :
    model.modifyRule? index change = some edited ↔
      index < model.rules.length ∧ model.withRules (model.rules.modify index change) = edited := by
  rw [modifyRule?, Option.ite_none_right_eq_some, Option.some.injEq]

private theorem drop?_eq_some_iff {rule : Rule} :
    model.drop? index = some (rule, edited) ↔
      model.rules[index]? = some rule ∧
        model.withRules (model.rules.eraseIdx index) = edited := by
  rw [drop?, Option.map_eq_some_iff]
  constructor
  · rintro ⟨_, atIndex, ⟨⟩⟩
    exact ⟨atIndex, rfl⟩
  · rintro ⟨atIndex, rfl⟩
    exact ⟨rule, atIndex, rfl⟩

/-- Keeping rules by their indices succeeds exactly if there are such rules. -/
theorem keep?_eq_some_iff {indices : List Nat} :
    model.keep? indices = some edited ↔
      ∃ rules, List.Forall₂ (fun index rule => model.rules[index]? = some rule) indices rules ∧
        model.withRules rules = edited := by
  simp only [keep?, Option.map_eq_some_iff, mapM_eq_some_iff]

/-- No input notices a change to a rule, or its removal, if the rules before it settle it. -/
theorem firstMatch_of_edit_behind
    (settled : firstMatch env (model.rules.take index) ≠ .ok none)
    (isEdit : (∃ change, model.modifyRule? index change = some edited) ∨
      ∃ rule, model.drop? index = some (rule, edited)) :
    firstMatch env edited.rules = firstMatch env model.rules := by
  have unread : ∀ rest, firstMatch env (model.rules.take index ++ rest) =
      firstMatch env model.rules := by
    intro rest
    rw [firstMatch_append_congr settled rest (model.rules.drop index), List.take_append_drop]
  rcases isEdit with ⟨change, changed⟩ | ⟨rule, dropped⟩
  · obtain ⟨_, rfl⟩ := modifyRule?_eq_some_iff.mp changed
    rw [withRules, List.modify_eq_take_drop]
    exact unread _
  · obtain ⟨_, rfl⟩ := drop?_eq_some_iff.mp dropped
    rw [withRules, List.eraseIdx_eq_take_drop_succ]
    exact unread _

/-- An added rule is not consulted where the others settle the input. -/
theorem firstMatch_add_of_settled
    (settled : firstMatch env model.rules ≠ .ok none) (rule : Rule) :
    firstMatch env (model.add rule).rules = firstMatch env model.rules := by
  have unread := firstMatch_append_congr settled [rule] []
  rw [List.append_nil] at unread
  exact unread

/-- A change that leaves what the condition comes to leaves the selection. -/
theorem firstMatch_modify
    (same : ∀ rule, (change rule).condition.eval env = rule.condition.eval env) :
    firstMatch env (model.rules.modify index change) = firstMatch env model.rules := by
  apply firstMatch_congr_eval
  apply List.ext_getElem?
  intro place
  rw [List.getElem?_map, List.getElem?_modify, List.getElem?_map]
  cases model.rules[place]? with
  | none => rfl
  | some rule => by_cases isPlace : index = place <;> simp [isPlace, same]

/-- A rule whose guard holds is selected as it was without the guard. -/
theorem firstMatch_of_guard? {condition : Condition}
    (isEdit : model.guard? index condition = some edited)
    (holds : condition.eval env = .ok true) :
    firstMatch env edited.rules = firstMatch env model.rules := by
  obtain ⟨_, rfl⟩ := modifyRule?_eq_some_iff.mp isEdit
  apply firstMatch_modify
  intro rule
  rw [Condition.eval_join, List.map_cons, List.map_cons, List.map_nil, holds]
  cases rule.condition.eval env with
  | error cause => rfl
  | ok value => cases value <;> rfl

/-- A rule that is negated twice is selected as before. -/
theorem firstMatch_of_negate?_twice {restored : Model}
    (isEdit : model.negate? index = some edited) (isAgain : edited.negate? index = some restored) :
    firstMatch env restored.rules = firstMatch env model.rules := by
  obtain ⟨_, rfl⟩ := modifyRule?_eq_some_iff.mp isEdit
  obtain ⟨_, rfl⟩ := modifyRule?_eq_some_iff.mp isAgain
  rw [withRules, withRules, List.modify_modify_eq]
  apply firstMatch_modify
  intro rule
  rw [Function.comp_apply, Condition.eval, Condition.eval]
  cases rule.condition.eval env with
  | error cause => rfl
  | ok value => cases value <;> rfl

/-- Another result for a rule shows exactly where the rule is selected. -/
theorem outcome_of_setResult? {result : Literal}
    (isEdit : model.setResult? index result = some edited) (env : Env) :
    edited.outcome env =
      match model.outcome env with
      | .hit place old => .hit place (if index = place then result else old)
      | .unknown reason => .unknown reason := by
  obtain ⟨_, rfl⟩ := modifyRule?_eq_some_iff.mp isEdit
  have selection : firstMatch env (model.rules.modify index fun rule => { rule with result }) =
      firstMatch env model.rules := firstMatch_modify fun _ => rfl
  rw [outcome, outcome, withRules, selection]
  cases firstMatch env model.rules with
  | error cause => rfl
  | ok selected =>
      cases selected with
      | none => rfl
      | some place =>
          simp only [List.getElem?_modify]
          cases model.rules[place]? with
          | none => rfl
          | some rule => by_cases isPlace : index = place <;> simp [isPlace]

end Model

end Rulebook
