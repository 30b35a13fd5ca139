import Rulebook.Pass
import Rulebook.Proofs.Distinct
import Rulebook.Proofs.Evaluation
import Rulebook.Proofs.FirstMatch

/-!
# Normal forms keep the truth value

A condition and its normal form have the same truth value under all bindings, and one of them is
undecided exactly when the other is. Which error an undecided condition reports may differ, since
the parts of a junction are sorted. The rules of a simplified model therefore match as before.
-/

namespace Rulebook

@[simp]
theorem Comparator.holds_negate (op : Comparator) (ordering : Ordering) :
    op.negate.holds ordering = !op.holds ordering := by
  cases op <;> cases ordering <;> rfl

/-- Values that cannot be ordered cannot be ordered the other way either. -/
theorem Value.related_negate (left : Value) (op : Comparator) (right : Value) :
    (left.related op.negate right).toOption =
      (left.related op right).toOption.map (!·) := by
  unfold Value.related
  split
  · simp [Except.toOption]
  · split
    · simp [Except.toOption]
    · cases op <;> simp [Comparator.negate, Except.toOption]

namespace Condition

private theorem truth_negateIf (env : Env) (negated : Bool) (condition : Condition) :
    (if negated then not condition else condition).truth env =
      (condition.truth env).map (· != negated) := by
  cases negated with
  | false => simp
  | true =>
      rw [if_pos rfl, truth_not]
      simp

private theorem truth_comparison_negate
    (env : Env) (name : String) (op : Comparator) (constant : Value) :
    (comparison name op.negate constant).truth env =
      ((comparison name op constant).truth env).map (!·) := by
  simp only [truth, eval]
  cases env.lookup name with
  | ok value => exact Value.related_negate value op constant
  | error error => rfl

mutual

/-- Pushing a negation down to the leaves negates the truth value and nothing more. -/
theorem truth_pushNegation (env : Env) (negated : Bool) (condition : Condition) :
    (pushNegation negated condition).truth env =
      (condition.truth env).map (· != negated) := by
  cases condition with
  | literal value => rfl
  | var name => exact truth_negateIf env negated (var name)
  | comparison name op constant =>
      rw [← truth_negateIf]
      cases negated with
      | false => rfl
      | true =>
          rw [pushNegation, if_pos rfl, if_pos rfl, truth_not]
          exact truth_comparison_negate env name op constant
  | junction kind parts =>
      rw [pushNegation, truth_junction, truth_junction, truth_pushNegations env negated parts]
      cases negated with
      | false => simp
      | true =>
          have negation : (· != true) = (! · : Bool → Bool) := by
            funext value
            cases value <;> rfl
          rw [if_pos rfl, negation]
          exact Junction.dual_truth_not kind _
  | not operand =>
      rw [pushNegation, truth_pushNegation env (!negated) operand, truth_not, Option.map_map]
      congr 1
      funext value
      cases value <;> cases negated <;> rfl
  | verbatim text => exact truth_negateIf env negated (verbatim text)

theorem truth_pushNegations (env : Env) (negated : Bool) (parts : List Condition) :
    (pushNegations negated parts).map (truth env) =
      (parts.map (truth env)).map (Option.map (· != negated)) := by
  cases parts with
  | nil => rfl
  | cons part rest =>
      rw [pushNegations, List.map_cons, truth_pushNegation env negated part,
        truth_pushNegations env negated rest]
      rfl

end

/-- The test for a literal recognizes that literal only. -/
theorem isLiteral_iff {value : Bool} {condition : Condition} :
    condition.isLiteral value = true ↔ condition = literal value := by
  cases condition <;> simp [isLiteral]

/-- Leaving out the neutral literals changes nothing. -/
theorem truth_filter_unit
    (env : Env) (kind : Junction) (parts : List Condition) :
    kind.truth ((parts.filter fun part => !part.isLiteral kind.unit).map (truth env)) =
      kind.truth (parts.map (truth env)) := by
  have sameMembers :
      ∀ tested : Option Bool, tested ≠ some kind.unit →
        (tested ∈ (parts.filter fun part => !part.isLiteral kind.unit).map (truth env) ↔
          tested ∈ parts.map (truth env)) := by
    intro tested notUnit
    simp only [List.mem_map, List.mem_filter]
    constructor
    · rintro ⟨part, ⟨member, _⟩, equality⟩
      exact ⟨part, member, equality⟩
    · rintro ⟨part, member, equality⟩
      refine ⟨part, ⟨member, ?_⟩, equality⟩
      by_contra neutral
      have isUnit : part = literal kind.unit := isLiteral_iff.mp (by simpa using neutral)
      rw [isUnit] at equality
      exact notUnit equality.symm
  apply Junction.truth_congr
  · exact sameMembers _ fun same => kind.unit_ne_decisive (Option.some.inj same).symm
  · exact sameMembers _ (Option.some_ne_none _).symm

/-- Sorting the parts of a junction and leaving out repetitions changes nothing. -/
theorem truth_sorted
    (env : Env) (kind : Junction) (parts : List Condition) :
    kind.truth ((SortedSet.ofList compare parts).map (truth env)) =
      kind.truth (parts.map (truth env)) := by
  have sameMembers :
      ∀ part, part ∈ SortedSet.ofList compare parts ↔ part ∈ parts :=
    fun part => SortedSet.mem_ofList_iff compare_eq_iff part parts
  apply Junction.truth_congr
  · simp only [List.mem_map, sameMembers]
  · simp only [List.mem_map, sameMembers]

/-- A folded junction has the truth value of the junction of the same parts. -/
theorem truth_foldJunction
    (env : Env) (kind : Junction) (parts : List Condition) :
    (foldJunction kind parts).truth env = kind.truth (parts.map (truth env)) := by
  rw [foldJunction]
  split
  · rename_i settled
    obtain ⟨part, member, isDecisive⟩ := List.any_eq_true.mp settled
    rw [isLiteral_iff.mp isDecisive] at member
    have decisive : some kind.decisive ∈ parts.map (truth env) :=
      List.mem_map.mpr ⟨_, member, rfl⟩
    rw [Junction.truth_of_mem_decisive decisive]
    rfl
  · rw [truth_ofParts, truth_sorted, truth_flatMap_splice, truth_filter_unit]

mutual

@[simp]
theorem truth_fold (env : Env) (condition : Condition) :
    (fold condition).truth env = condition.truth env := by
  cases condition with
  | junction kind parts =>
      rw [fold, truth_foldJunction, truth_foldAll env parts, truth_junction]
  | _ => rfl

theorem truth_foldAll (env : Env) (parts : List Condition) :
    (foldAll parts).map (truth env) = parts.map (truth env) := by
  cases parts with
  | nil => rfl
  | cons part rest =>
      rw [foldAll, List.map_cons, List.map_cons, truth_fold env part, truth_foldAll env rest]

end

/-- The normal form is undecided exactly where the condition is. -/
@[simp]
theorem truth_normalize (env : Env) (condition : Condition) :
    (normalize condition).truth env = condition.truth env := by
  rw [normalize, truth_fold, truth_pushNegation]
  simp

theorem eval_normalize_eq_ok_iff (env : Env) (condition : Condition) (value : Bool) :
    (normalize condition).eval env = .ok value ↔ condition.eval env = .ok value := by
  rw [← truth_eq_some_iff, ← truth_eq_some_iff, truth_normalize]

end Condition

/-- Simplified rules select as the rules do. Errors are compared as such, not for what they report.
-/
theorem firstMatch_simplify_toOption (env : Env) (rules : List Rule) :
    (firstMatch env (rules.map Rule.simplify)).toOption = (firstMatch env rules).toOption := by
  induction rules with
  | nil => rfl
  | cons rule rest inductionHypothesis =>
      rw [List.map_cons, firstMatch_cons_toOption, firstMatch_cons_toOption,
        inductionHypothesis]
      simp only [Rule.simplify, Condition.truth_normalize]

/-- Simplifying changes neither the truth value of a condition nor the rule that a model selects,
except for the error that is reported where there is none. -/
theorem simplify_keeps_meaning :
    (∀ (condition : Condition) (env : Env) (value : Bool),
      condition.normalize.eval env = .ok value ↔ condition.eval env = .ok value) ∧
    (∀ (model : Model) (env : Env) (selected : Option Nat),
      firstMatch env (Pass.simplify.run model).model.rules = .ok selected ↔
        firstMatch env model.rules = .ok selected) := by
  constructor
  · intro condition env value
    exact Condition.eval_normalize_eq_ok_iff env condition value
  · intro model env selected
    have same := firstMatch_simplify_toOption env model.rules
    change firstMatch env (model.rules.map Rule.simplify) = _ ↔ _
    rw [← toOption_eq_some_iff, ← toOption_eq_some_iff, same]

end Rulebook
