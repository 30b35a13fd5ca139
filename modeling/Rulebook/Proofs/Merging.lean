import Rulebook.Pass
import Rulebook.Proofs.Decision
import Rulebook.Proofs.Distinct
import Mathlib.Data.List.Basic

/-!
# What merging does to the decision

Merging brings the rules of one result together at the place of the first of them. Where all
conditions have a truth value, a merged rule therefore holds if one of its members does, and the
merged model decides for the earliest of the results that the rules which hold name: the one that
appears first in the rule list, be it with a rule that does not hold. The merged model decides as
before unless this puts another result before that of the first match.
-/

namespace Rulebook

/-- A merged condition has the truth value of the disjunction of its members. -/
theorem truth_groupCondition (env : Env) (members : List Condition) :
    (groupCondition members).truth env =
      Junction.or.truth (members.map (Condition.truth env)) := by
  rw [groupCondition]
  split
  · rename_i settled
    obtain ⟨member, isMember, always⟩ := List.any_eq_true.mp settled
    rw [Condition.isTrue_iff.mp always] at isMember
    have decisive : some Junction.or.decisive ∈ members.map (Condition.truth env) :=
      List.mem_map.mpr ⟨_, isMember, rfl⟩
    exact (Junction.truth_of_mem_decisive decisive).symm
  · rw [Condition.truth, Condition.eval_join, Junction.settle_toOption, List.map_map]
    rfl

/-- A rule that holds has the result. -/
def Named (env : Env) (rules : List Rule) (result : Literal) : Prop :=
  ∃ rule ∈ rules, rule.Holds env ∧ rule.result = result

instance (env : Env) (rules : List Rule) (result : Literal) :
    Decidable (Named env rules result) :=
  inferInstanceAs (Decidable (∃ rule ∈ rules, _ ∧ _))

theorem mem_conditionsFor_iff {result : Literal} {rules : List Rule} {condition : Condition} :
    condition ∈ conditionsFor result rules ↔
      ∃ rule ∈ rules, rule.result = result ∧ rule.condition = condition := by
  simp [conditionsFor, and_assoc]

/-- A merged rule holds if a rule that holds has its result, and is false otherwise. -/
theorem truth_merged
    {env : Env} {rules : List Rule} (evaluable : Evaluable env rules) (result : Literal) :
    (groupCondition (conditionsFor result rules)).truth env =
      some (decide (Named env rules result)) := by
  rw [truth_groupCondition]
  by_cases named : Named env rules result
  · obtain ⟨rule, member, holds, isResult⟩ := named
    have decisive : some Junction.or.decisive ∈
        (conditionsFor result rules).map (Condition.truth env) :=
      List.mem_map.mpr ⟨rule.condition, mem_conditionsFor_iff.mpr ⟨rule, member, isResult, rfl⟩,
        Rule.holds_iff.mp holds⟩
    rw [Junction.truth_of_mem_decisive decisive, decide_eq_true ⟨rule, member, holds, isResult⟩]
    rfl
  · rw [decide_eq_false named]
    refine (Junction.truth_eq_unit_iff .or _).mpr ?_
    rw [List.forall_mem_map]
    intro condition isMember
    obtain ⟨rule, member, isResult, rfl⟩ := mem_conditionsFor_iff.mp isMember
    obtain ⟨value, evaluated⟩ := evaluable rule member
    cases value with
    | true => exact absurd ⟨rule, member, evaluated, isResult⟩ named
    | false => exact Condition.truth_eq_some_iff.mpr evaluated

/-- The merged rules decide for the first result in the list that a rule which holds has. -/
theorem eval_ofRules_mergeRules
    {env : Env} {rules : List Rule} (evaluable : Evaluable env rules) :
    (Decision.ofRules (mergeRules rules)).eval env =
      .ok (((rules.map Rule.result).find? fun result => Named env rules result).getD
        (.value .none)) := by
  have mergedEvaluable : Evaluable env (mergeRules rules) := by
    intro rule member
    obtain ⟨result, _, rfl⟩ := List.mem_map.mp member
    exact ⟨_, Condition.truth_eq_some_iff.mp (truth_merged evaluable result)⟩
  rw [Decision.eval_ofRules_of_evaluable mergedEvaluable, mergeRules, List.find?_map,
    Option.map_map, resultsOf, find?_firstOccurrences]
  simp only [Function.comp_def, Rule.holds_iff, truth_merged evaluable, Option.some.injEq,
    decide_eq_true_eq, Option.map_id']

/-- The place where a result first appears in a rule list. -/
def firstPlace (rules : List Rule) (result : Literal) : Nat :=
  (rules.map Rule.result).idxOf result

/-- The result of a rule that holds which appears first in the list; `None` if no rule holds. -/
inductive EarliestResult (env : Env) (rules : List Rule) : Literal → Prop
  | named {rule : Rule} :
      rule ∈ rules → rule.Holds env →
      (∀ other ∈ rules, other.Holds env →
        firstPlace rules rule.result ≤ firstPlace rules other.result) →
      EarliestResult env rules rule.result
  | nothing : (∀ rule ∈ rules, ¬ rule.Holds env) → EarliestResult env rules (.value .none)

private theorem idxOf_le_of_find?
    {α : Type} [DecidableEq α] {sought : α → Bool} {elements : List α} {found : α}
    (isFound : elements.find? sought = some found) :
    ∀ other ∈ elements, sought other = true → elements.idxOf found ≤ elements.idxOf other := by
  induction elements with
  | nil => simp
  | cons first rest inductionHypothesis =>
      intro other member isSought
      by_cases isFirst : sought first = true
      · rw [List.find?_cons_of_pos isFirst] at isFound
        cases isFound
        rw [List.idxOf_cons_self]
        exact Nat.zero_le _
      · rw [List.find?_cons_of_neg isFirst] at isFound
        have notFound : first ≠ found := by
          rintro rfl
          exact isFirst (List.find?_some isFound)
        have notOther : first ≠ other := by
          rintro rfl
          exact isFirst isSought
        have inRest : other ∈ rest := List.mem_of_ne_of_mem notOther.symm member
        rw [List.idxOf_cons_ne _ notFound, List.idxOf_cons_ne _ notOther]
        exact Nat.succ_le_succ (inductionHypothesis isFound other inRest isSought)

/-- The first result in the list that a rule which holds has is the earliest one. -/
theorem earliestResult_find?
    (env : Env) (rules : List Rule) :
    EarliestResult env rules
      (((rules.map Rule.result).find? fun result => Named env rules result).getD
        (.value .none)) := by
  cases isFound : (rules.map Rule.result).find? fun result => Named env rules result with
  | none =>
      refine .nothing ?_
      intro rule member holds
      have notNamed := List.find?_eq_none.mp isFound rule.result (List.mem_map_of_mem member)
      exact notNamed (decide_eq_true ⟨rule, member, holds, rfl⟩)
  | some result =>
      have accepted := List.find?_some isFound
      obtain ⟨rule, member, holds, rfl⟩ := of_decide_eq_true accepted
      refine .named member holds ?_
      intro other otherMember otherHolds
      exact idxOf_le_of_find? isFound other.result (List.mem_map_of_mem otherMember)
        (decide_eq_true ⟨other, otherMember, otherHolds, rfl⟩)

private theorem firstPlace_inj {rules : List Rule} {rule : Rule} (member : rule ∈ rules)
    {result : Literal} :
    firstPlace rules rule.result = firstPlace rules result ↔ rule.result = result :=
  List.idxOf_inj (List.mem_map_of_mem member)

/-- The earliest result is that of a rule which holds if no such rule has one that appears
before. -/
theorem EarliestResult.eq_iff
    {env : Env} {rules : List Rule} {result : Literal} (earliest : EarliestResult env rules result)
    {first : Rule} (isRule : first ∈ rules) (firstHolds : first.Holds env) :
    result = first.result ↔
      ∀ rule ∈ rules, rule.Holds env →
        ¬ firstPlace rules rule.result < firstPlace rules first.result := by
  cases earliest with
  | nothing noneHolds => exact absurd firstHolds (noneHolds first isRule)
  | @named chosen member holds least =>
      constructor
      · intro same rule otherMember otherHolds
        rw [← same, Nat.not_lt]
        exact least rule otherMember otherHolds
      · intro noneBefore
        have atMost : firstPlace rules chosen.result ≤ firstPlace rules first.result :=
          least first isRule firstHolds
        have atLeast : firstPlace rules first.result ≤ firstPlace rules chosen.result :=
          Nat.le_of_not_lt (noneBefore chosen member holds)
        exact (firstPlace_inj member).mp (Nat.le_antisymm atMost atLeast)

/-- Merging decides for the earliest result of a rule that holds. This is what the model decides
itself unless such a result appears before that of the first match. -/
theorem Model.merge_decides (model : Model) (env : Env) (evaluable : Evaluable env model.rules) :
    (∃ result, (Decision.ofRules model.merge.rules).eval env = .ok result ∧
      EarliestResult env model.rules result) ∧
    ((Decision.ofRules model.merge.rules).eval env = (Decision.ofRules model.rules).eval env ↔
      ∀ index first, firstMatch env model.rules = .ok (some index) →
        model.rules[index]? = some first →
          ∀ rule ∈ model.rules, rule.Holds env →
            ¬ firstPlace model.rules rule.result < firstPlace model.rules first.result) := by
  obtain ⟨merged, mergedEval, earliest⟩ :
      ∃ result, (Decision.ofRules model.merge.rules).eval env = .ok result ∧
        EarliestResult env model.rules result :=
    ⟨_, eval_ofRules_mergeRules evaluable, earliestResult_find? env model.rules⟩
  refine ⟨⟨merged, mergedEval, earliest⟩, ?_⟩
  have original := Decision.eval_ofRules env model.rules
  rw [mergedEval]
  cases selection : firstMatch env model.rules with
  | error error =>
      rw [selection, Decision.eval_ofRules_of_evaluable evaluable] at original
      cases original
  | ok selected =>
      rw [selection] at original
      cases selected with
      | none =>
          have fails := eval_of_firstMatch_eq_none selection
          have noneHolds : ∀ rule ∈ model.rules, ¬ rule.Holds env := by
            intro rule member holds
            rw [Rule.Holds, fails rule member] at holds
            cases holds
          cases earliest with
          | named member holds _ => exact absurd holds (noneHolds _ member)
          | nothing _ => simp [original, Except.map]
      | some index =>
          obtain ⟨first, atIndex, firstHolds⟩ := exists_rule_of_firstMatch selection
          have decided : (Decision.ofRules model.rules).eval env = .ok first.result := by
            rw [original]
            simp only [Except.map, Option.bind_some, atIndex, Option.map_some, Option.getD_some]
          rw [decided, Except.ok.injEq,
            earliest.eq_iff (List.mem_of_getElem? atIndex) firstHolds]
          constructor
          · rintro noneBefore other rule same atOther
            cases same
            rw [atIndex] at atOther
            cases atOther
            exact noneBefore
          · intro noneBefore
            exact noneBefore index first rfl atIndex

/-- The third rule shares the result of the first. One of its operands reads a name that is not
bound below. -/
def shipping : Model where
  functionName := "shipping"
  parameters := [⟨"heavy", .boolean⟩, ⟨"express", .boolean⟩, ⟨"urgent", .boolean⟩]
  rules :=
    [⟨.var "heavy", .value (.string "freight")⟩,
      ⟨.var "express", .value (.string "air")⟩,
      ⟨.junction .or [.var "fragile", .var "urgent"], .value (.string "freight")⟩]

def urgentOrder : Env :=
  .ofList [("heavy", .bool false), ("express", .bool true), ("urgent", .bool true)]

/-- The second rule matches first, but the third takes the place of the first when merged. -/
theorem Model.merge_decides_shipping :
    Evaluable urgentOrder shipping.rules ∧
      (∃ result, (Decision.ofRules shipping.merge.rules).eval urgentOrder = .ok result ∧
        EarliestResult urgentOrder shipping.rules result) ∧
      (Decision.ofRules shipping.merge.rules).eval urgentOrder ≠
        (Decision.ofRules shipping.rules).eval urgentOrder := by
  have evaluable : Evaluable urgentOrder shipping.rules := by decide
  obtain ⟨decided, sameIff⟩ := shipping.merge_decides urgentOrder evaluable
  refine ⟨evaluable, decided, ?_⟩
  intro same
  have selected : firstMatch urgentOrder shipping.rules = .ok (some 1) :=
    toOption_eq_some_iff.mp (by decide)
  refine sameIff.mp same 1 _ selected rfl
    ⟨.junction .or [.var "fragile", .var "urgent"], .value (.string "freight")⟩ ?_ ?_ ?_
  all_goals decide

end Rulebook
