import Rulebook.Pass
import Rulebook.Proofs.Decision
import Rulebook.Proofs.Flatness
import Rulebook.Proofs.Normalization

/-!
# Leaving out redundant rules

A rule is covered when the operands of its condition are among those of an earlier one, however
they are joined. If the earlier condition is a disjunction or has no operands, its being false
makes all these operands false, and with them the later condition. A covered rule is then false
wherever it is reached, and so all such rules can be left out at once, even where the covering rule
is itself one of them.
-/

namespace Rulebook

namespace Condition

private theorem Flat.atTop {condition : Condition} (flat : condition.Flat) :
    condition.FlatAtTop := by
  apply flat
  cases condition <;> simp [nodes]

/-- A condition that is not a conjunction is false only if all its operands are. -/
theorem truth_topParts_of_false
    {env : Env} {condition : Condition} (notAnd : condition.kind? ≠ some .and)
    (isFalse : condition.truth env = some false) :
    ∀ part ∈ condition.topParts, part.truth env = some false := by
  cases condition with
  | junction kind parts =>
      cases kind with
      | and => exact absurd rfl notAnd
      | or =>
          rw [truth_junction] at isFalse
          have allFalse := (Junction.truth_eq_unit_iff .or _).mp isFalse
          intro part member
          exact allFalse _ (List.mem_map_of_mem member)
  | literal | var | comparison | not | verbatim =>
      intro part member
      rw [topParts.eq_def, List.mem_singleton] at member
      rw [member]
      exact isFalse

/-- Operands that are all false make the condition false, whichever way they are joined. -/
theorem truth_of_topParts_false
    {env : Env} {condition : Condition} (flat : condition.FlatAtTop)
    (allFalse : ∀ part ∈ condition.topParts, part.truth env = some false) :
    condition.truth env = some false := by
  cases condition with
  | junction kind parts =>
      rw [truth_junction]
      cases kind with
      | and =>
          have nonempty : 0 < parts.length := Nat.lt_of_lt_of_le Nat.zero_lt_two flat.1
          obtain ⟨part, member⟩ := List.length_pos_iff_exists_mem.mp nonempty
          have decisive : some Junction.and.decisive ∈ parts.map (truth env) :=
            List.mem_map.mpr ⟨part, member, allFalse part member⟩
          exact Junction.truth_of_mem_decisive decisive
      | or =>
          refine (Junction.truth_eq_unit_iff .or _).mpr ?_
          rw [List.forall_mem_map]
          exact allFalse
  | literal | var | comparison | not | verbatim =>
      exact allFalse _ (by simp [topParts])

private theorem covers_iff {earlier later : Condition} :
    earlier.covers later = true ↔
      ∀ part ∈ later.topParts, part = earlier ∨ part ∈ earlier.topParts := by
  simp [covers]

/-- A condition that is no conjunction and is false makes false what it covers. -/
theorem truth_of_covers
    {env : Env} {earlier later : Condition} (covers : earlier.covers later = true)
    (notAnd : earlier.kind? ≠ some .and) (flat : later.FlatAtTop)
    (isFalse : earlier.truth env = some false) : later.truth env = some false := by
  refine truth_of_topParts_false flat ?_
  intro part member
  rcases covers_iff.mp covers part member with rfl | isOperand
  · exact isFalse
  · exact truth_topParts_of_false notAnd isFalse part isOperand

end Condition

namespace Model

/-- The normal form of the condition of a rule. -/
def normalCondition? (model : Model) (index : Nat) : Option Condition :=
  model.rules[index]?.map fun rule => rule.condition.normalize

/-- The condition of the covering rule is not a conjunction, or is the same as that of the rule it
covers, both in normal form. -/
def CoversSafely (model : Model) (redundancy : Redundancy) : Prop :=
  (model.normalCondition? redundancy.coveredBy).bind Condition.kind? ≠ some .and ∨
    model.normalCondition? redundancy.coveredBy = model.normalCondition? redundancy.rule

instance (model : Model) (redundancy : Redundancy) : Decidable (model.CoversSafely redundancy) :=
  inferInstanceAs (Decidable (_ ∨ _))

/-- The indices of the reported rules that are safely covered. -/
def removable (model : Model) : List Nat :=
  (model.redundancies.filter fun redundancy => model.CoversSafely redundancy).map Redundancy.rule

/-- The model without the rules at the given indices. -/
def without (model : Model) (indices : List Nat) : Model :=
  model.withRules ((model.rules.zipIdx.filter fun entry => entry.2 ∉ indices).map Prod.fst)

end Model

private theorem covers_of_coveringRule?
    {earlier : List Rule} {rule covering : Rule} {place : Nat}
    (found : coveringRule? earlier rule = some (covering, place)) :
    earlier[place]? = some covering ∧ covering.condition.covers rule.condition = true := by
  rw [coveringRule?] at found
  have isEarlier : (covering, place) ∈ earlier.zipIdx := List.mem_of_find?_eq_some found
  have accepted := List.find?_some found
  exact ⟨List.mem_zipIdx_iff_getElem?.mp isEarlier, (of_decide_eq_true accepted).2⟩

namespace Model

/-- A report names a rule and an earlier one, whose normal form covers that of the rule. -/
theorem exists_of_mem_redundancies
    {model : Model} {redundancy : Redundancy} (reported : redundancy ∈ model.redundancies) :
    ∃ earlier later : Rule,
      model.rules[redundancy.coveredBy]? = some earlier ∧
      model.rules[redundancy.rule]? = some later ∧
      redundancy.coveredBy < redundancy.rule ∧
      earlier.condition.normalize.covers later.condition.normalize = true := by
  obtain ⟨⟨normal, index⟩, isRule, covered⟩ := List.mem_filterMap.mp reported
  obtain ⟨⟨covering, coveredBy⟩, found, rfl⟩ := Option.map_eq_some_iff.mp covered
  obtain ⟨atPlace, covers⟩ := covers_of_coveringRule? found
  rw [List.mem_zipIdx_iff_getElem?, List.getElem?_map] at isRule
  obtain ⟨later, isLater, rfl⟩ := Option.map_eq_some_iff.mp isRule
  have isBefore : coveredBy < index := by
    by_contra notBefore
    rw [List.getElem?_take, if_neg notBefore] at atPlace
    cases atPlace
  rw [List.getElem?_take_of_lt isBefore, List.getElem?_map] at atPlace
  obtain ⟨earlier, isEarlier, rfl⟩ := Option.map_eq_some_iff.mp atPlace
  exact ⟨earlier, later, isEarlier, isLater, isBefore, covers⟩

/-- A safely covered rule is false wherever the covering rule is. -/
theorem eval_of_coversSafely
    (env : Env) {model : Model} {redundancy : Redundancy}
    (reported : redundancy ∈ model.redundancies) (safe : model.CoversSafely redundancy) :
    ∃ earlier later : Rule,
      model.rules[redundancy.coveredBy]? = some earlier ∧
      model.rules[redundancy.rule]? = some later ∧
      redundancy.coveredBy < redundancy.rule ∧
      (earlier.condition.eval env = .ok false → later.condition.eval env = .ok false) := by
  obtain ⟨earlier, later, isEarlier, isLater, isBefore, covers⟩ :=
    exists_of_mem_redundancies reported
  refine ⟨earlier, later, isEarlier, isLater, isBefore, ?_⟩
  intro isFalse
  have normalFalse : earlier.condition.normalize.truth env = some false := by
    rw [Condition.truth_normalize]
    exact Condition.truth_eq_some_iff.mpr isFalse
  rw [CoversSafely, normalCondition?, normalCondition?, isEarlier, isLater] at safe
  rw [← Condition.truth_eq_some_iff, ← Condition.truth_normalize]
  rcases safe with notAnd | same
  · have flat := later.condition.flat_normalize.atTop
    exact Condition.truth_of_covers covers notAnd flat normalFalse
  · have sameNormal : earlier.condition.normalize = later.condition.normalize :=
      Option.some.inj same
    rwa [← sameNormal]

end Model

/-- Rules can be left out if each of them is false wherever all rules before it are. -/
theorem eval_ofRules_filter
    {env : Env} {dropped : List Nat} (before rest : List Rule)
    (beforeFalse : ∀ rule ∈ before, rule.condition.eval env = .ok false)
    (idle : ∀ (earlier : List Rule) (rule : Rule) (later : List Rule),
      before ++ rest = earlier ++ rule :: later → earlier.length ∈ dropped →
        (∀ other ∈ earlier, other.condition.eval env = .ok false) →
          rule.condition.eval env = .ok false) :
    (Decision.ofRules (((rest.zipIdx before.length).filter fun entry => entry.2 ∉ dropped).map
      Prod.fst)).eval env = (Decision.ofRules rest).eval env := by
  induction rest generalizing before with
  | nil => rfl
  | cons rule rest inductionHypothesis =>
      have continues (isFalse : rule.condition.eval env = .ok false) :=
        inductionHypothesis (before ++ [rule])
          (List.forall_mem_append.mpr ⟨beforeFalse, List.forall_mem_singleton.mpr isFalse⟩)
          (by rwa [List.append_assoc])
      rw [List.length_append] at continues
      rw [List.zipIdx_cons]
      by_cases isDropped : before.length ∈ dropped
      · have isFalse := idle before rule rest rfl isDropped beforeFalse
        rw [List.filter_cons_of_neg (by simpa using isDropped),
          Decision.eval_ofRules_of_false isFalse]
        exact continues isFalse
      · rw [List.filter_cons_of_pos (by simpa using isDropped)]
        exact Decision.eval_ofRules_cons_congr continues

/-- Leaving out at once all reported rules that are safely covered changes no decision: neither the
result nor the error that is reported instead. -/
theorem Model.without_removable_decides (model : Model) (env : Env) :
    (Decision.ofRules (model.without model.removable).rules).eval env =
      (Decision.ofRules model.rules).eval env := by
  refine eval_ofRules_filter [] model.rules (by simp) ?_
  intro earlier rule later split isRemovable earlierFalse
  obtain ⟨redundancy, isSafe, isPlace⟩ := List.mem_map.mp isRemovable
  obtain ⟨reported, safe⟩ := List.mem_filter.mp isSafe
  obtain ⟨covering, covered, isCovering, isCovered, isBefore, follows⟩ :=
    eval_of_coversSafely env reported (of_decide_eq_true safe)
  rw [List.nil_append] at split
  rw [split, isPlace, List.getElem?_append_right (Nat.le_refl _), Nat.sub_self] at isCovered
  cases isCovered
  rw [isPlace] at isBefore
  rw [split, List.getElem?_append_left isBefore] at isCovering
  exact follows (earlierFalse covering (List.mem_of_getElem? isCovering))

namespace Model

/-- The third rule is covered by the second alone, which is covered by the first. -/
def alarm : Model where
  functionName := "alarm"
  parameters := [⟨"fire", .boolean⟩, ⟨"smoke", .boolean⟩, ⟨"test", .boolean⟩]
  rules :=
    [⟨.junction .or [.var "fire", .var "smoke", .var "test"], .value (.bool true)⟩,
      ⟨.junction .or [.var "smoke", .var "fire"], .value (.bool true)⟩,
      ⟨.junction .and [.junction .or [.var "fire", .var "smoke"], .var "fire"],
        .value (.bool true)⟩,
      ⟨.literal true, .value (.bool false)⟩]

theorem without_removable_decides_alarm :
    alarm.removable = [1, 2] ∧
      ∀ env, (Decision.ofRules (alarm.without [1, 2]).rules).eval env =
        (Decision.ofRules alarm.rules).eval env := by
  have removed : alarm.removable = [1, 2] := by decide +kernel
  refine ⟨removed, ?_⟩
  intro env
  rw [← removed]
  exact alarm.without_removable_decides env

end Model

end Rulebook
