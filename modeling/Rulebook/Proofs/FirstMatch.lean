import Rulebook.Model.Basic
import Rulebook.Proofs.Evaluation

/-!
# Selecting a rule

The first rule whose condition holds is selected, unless the condition of an earlier rule has no
truth value. Which rule it is depends on the truth values of the conditions alone.
-/

namespace Rulebook

/-- Where all conditions come out false, no rule is selected. -/
theorem firstMatch_of_all_false
    {env : Env} {rules : List Rule}
    (allFalse : ∀ rule ∈ rules, rule.condition.eval env = .ok false) :
    firstMatch env rules = .ok none := by
  induction rules with
  | nil => rfl
  | cons rule rest inductionHypothesis =>
      have restNone : firstMatch env rest = .ok none :=
        inductionHypothesis fun other member => allFalse other (List.mem_cons_of_mem _ member)
      rw [firstMatch, allFalse rule List.mem_cons_self, restNone]
      rfl

/-- Where no rule is selected, all conditions come out false. -/
theorem eval_of_firstMatch_eq_none
    {env : Env} {rules : List Rule} (noMatch : firstMatch env rules = .ok none) :
    ∀ rule ∈ rules, rule.condition.eval env = .ok false := by
  induction rules with
  | nil => simp
  | cons rule rest inductionHypothesis =>
      rw [firstMatch] at noMatch
      split at noMatch
      · cases noMatch
      · cases noMatch
      · rename_i isFalse
        obtain ⟨later, found, shifted⟩ := exists_ok_of_map_eq_ok noMatch
        rw [Option.map_eq_none_iff] at shifted
        rw [shifted] at found
        exact List.forall_mem_cons.mpr ⟨isFalse, inductionHypothesis found⟩

/-- Rules that follow others are only consulted if none of those matches. -/
theorem firstMatch_append (env : Env) (rules others : List Rule) :
    firstMatch env (rules ++ others) =
      match firstMatch env rules with
      | .ok none => (firstMatch env others).map (Option.map (· + rules.length))
      | .ok (some index) => .ok (some index)
      | .error error => .error error := by
  induction rules with
  | nil =>
      change firstMatch env others = (firstMatch env others).map (Option.map (· + 0))
      cases firstMatch env others with
      | error error => rfl
      | ok selected => cases selected <;> rfl
  | cons rule rest inductionHypothesis =>
      rw [List.cons_append, firstMatch, firstMatch, inductionHypothesis]
      cases rule.condition.eval env with
      | error error => rfl
      | ok value =>
          cases value with
          | true => rfl
          | false =>
              cases firstMatch env rest with
              | error error => rfl
              | ok selected =>
                  cases selected with
                  | some index => rfl
                  | none =>
                      cases firstMatch env others with
                      | error error => rfl
                      | ok later => cases later <;> rfl

theorem firstMatch_append_eq_none
    {env : Env} {rules others : List Rule}
    (noMatch : firstMatch env (rules ++ others) = .ok none) :
    firstMatch env rules = .ok none ∧ firstMatch env others = .ok none := by
  rw [firstMatch_append] at noMatch
  cases first : firstMatch env rules with
  | error error => simp [first] at noMatch
  | ok selected =>
      cases selected with
      | some index => simp [first] at noMatch
      | none =>
          rw [first] at noMatch
          obtain ⟨later, found, shifted⟩ := exists_ok_of_map_eq_ok noMatch
          rw [Option.map_eq_none_iff] at shifted
          exact ⟨rfl, by rw [found, shifted]⟩

/-- The condition of a selected rule holds. -/
theorem exists_rule_of_firstMatch
    {env : Env} {rules : List Rule} {index : Nat}
    (selected : firstMatch env rules = .ok (some index)) :
    ∃ rule, rules[index]? = some rule ∧ rule.condition.eval env = .ok true := by
  induction rules generalizing index with
  | nil => cases selected
  | cons rule rest inductionHypothesis =>
      rw [firstMatch] at selected
      split at selected
      · cases selected
      · rename_i holds
        cases selected
        exact ⟨rule, rfl, holds⟩
      · obtain ⟨later, found, shifted⟩ := exists_ok_of_map_eq_ok selected
        obtain ⟨place, rfl, rfl⟩ := Option.map_eq_some_iff.mp shifted
        exact inductionHypothesis found

theorem firstMatch_cons_toOption (env : Env) (rule : Rule) (rest : List Rule) :
    (firstMatch env (rule :: rest)).toOption =
      (rule.condition.truth env).bind fun holds =>
        if holds then some (some 0)
        else (firstMatch env rest).toOption.map (Option.map (· + 1)) := by
  rw [firstMatch, Condition.truth]
  cases rule.condition.eval env with
  | error error => rfl
  | ok value =>
      cases value with
      | true => rfl
      | false => cases firstMatch env rest <;> rfl

/-- Conditions with the same truth values select the same rule. -/
theorem firstMatch_toOption_congr
    {env other : Env} {rules : List Rule}
    (same : ∀ rule ∈ rules, rule.condition.truth env = rule.condition.truth other) :
    (firstMatch env rules).toOption = (firstMatch other rules).toOption := by
  induction rules with
  | nil => rfl
  | cons rule rest inductionHypothesis =>
      rw [List.forall_mem_cons] at same
      rw [firstMatch_cons_toOption, firstMatch_cons_toOption, same.1, inductionHypothesis same.2]

end Rulebook
