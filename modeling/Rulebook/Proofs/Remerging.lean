import Rulebook.Proofs.Flatness
import Rulebook.Proofs.Merging

/-!
# Merging twice

Merging names each result once, in the order in which the rules first name them. A second merging
finds one rule for each result. It still joins the condition of that rule with nothing, which
changes a disjunction of fewer than two operands: none at all becomes falsity, and a single one
takes the place of the whole. The first merging leaves such a disjunction where it is the only
operand that the rules of a result contribute, which cannot be if their conditions are flat.
-/

namespace Rulebook

namespace Condition

private theorem ofParts_eq_short_iff {kind : Junction} {parts inner : List Condition}
    (short : inner.length < 2) :
    ofParts kind parts = junction kind inner ↔ parts = [junction kind inner] := by
  match parts with
  | [] => simp [ofParts]
  | [part] => simp [ofParts]
  | first :: second :: rest =>
      have different : first :: second :: rest ≠ inner := by
        rintro rfl
        rw [List.length_cons, List.length_cons] at short
        omega
      simp [ofParts, different]

end Condition

/-- What the rules of a result contribute to its disjunction. -/
def operandsFor (result : Literal) (rules : List Rule) : List Condition :=
  (conditionsFor result rules).flatMap (Condition.splice .or)

private theorem groupCondition_singleton (condition : Condition) :
    groupCondition [condition] = .ofParts .or (condition.splice .or) := by
  rw [groupCondition, Condition.join, List.flatMap_singleton]
  split
  · rename_i always
    have isTrue : condition = .literal true := Condition.isTrue_iff.mp (by simpa using always)
    rw [isTrue]
    rfl
  · rfl

private theorem groupCondition_singleton_eq_iff (condition : Condition) :
    groupCondition [condition] = condition ↔
      ∀ parts, condition = .junction .or parts → 2 ≤ parts.length := by
  rw [groupCondition_singleton]
  by_cases isDisjunction : condition.kind? = some .or
  · obtain ⟨parts, rfl⟩ := Condition.kind?_eq_some_iff.mp isDisjunction
    rw [Condition.splice_junction, Condition.ofParts_eq_junction_iff]
    constructor
    · intro several others same
      cases same
      exact several
    · intro several
      exact several parts rfl
  · rw [Condition.splice_of_kind_ne isDisjunction]
    refine iff_of_true rfl ?_
    intro parts same
    exact absurd (Condition.kind?_eq_some_iff.mpr ⟨parts, same⟩) isDisjunction

private theorem groupCondition_eq_short_iff {members parts : List Condition}
    (short : parts.length < 2) :
    groupCondition members = .junction .or parts ↔
      members.flatMap (Condition.splice .or) = [.junction .or parts] := by
  rw [groupCondition]
  split
  · rename_i settled
    obtain ⟨member, isMember, always⟩ := List.any_eq_true.mp settled
    rw [Condition.isTrue_iff.mp always] at isMember
    have contributed : .literal true ∈ members.flatMap (Condition.splice .or) :=
      List.mem_flatMap.mpr ⟨_, isMember, List.mem_cons_self⟩
    refine iff_of_false (by simp) ?_
    intro same
    rw [same, List.mem_singleton] at contributed
    cases contributed
  · exact Condition.ofParts_eq_short_iff short

/-- Merged rules have the results in the order of their first appearance, each of them once. -/
@[simp]
theorem results_mergeRules (rules : List Rule) :
    (mergeRules rules).map Rule.result = resultsOf rules := by
  rw [mergeRules, List.map_map]
  exact List.map_id _

@[simp]
theorem resultsOf_mergeRules (rules : List Rule) :
    resultsOf (mergeRules rules) = resultsOf rules := by
  rw [resultsOf, results_mergeRules]
  exact firstOccurrences_of_nodup (firstOccurrences_nodup _)

/-- Each result of the merged rules has one rule, which is selected by the result alone. -/
theorem conditionsFor_mergeRules {rules : List Rule} {result : Literal}
    (named : result ∈ resultsOf rules) :
    conditionsFor result (mergeRules rules) = [groupCondition (conditionsFor result rules)] := by
  have once : (resultsOf rules).count result = 1 :=
    List.count_eq_one_of_mem (firstOccurrences_nodup _) named
  have selected : (resultsOf rules).filter (fun other => other = result) = [result] := by
    rw [List.filter_eq, once]
    rfl
  rw [conditionsFor, mergeRules, List.filter_map, List.map_map]
  change ((resultsOf rules).filter fun other => other = result).map _ = _
  rw [selected]
  rfl

/-- Merging again keeps the results and joins the condition of each group by itself. -/
theorem mergeRules_mergeRules (rules : List Rule) :
    mergeRules (mergeRules rules) =
      (resultsOf rules).map fun result =>
        ⟨groupCondition [groupCondition (conditionsFor result rules)], result⟩ := by
  rw [mergeRules, resultsOf_mergeRules]
  apply List.map_congr_left
  intro result named
  rw [conditionsFor_mergeRules named]

private theorem mem_resultsOf_of_mem_operandsFor {rules : List Rule} {result : Literal}
    {operand : Condition} (member : operand ∈ operandsFor result rules) :
    result ∈ resultsOf rules := by
  obtain ⟨condition, inGroup, _⟩ := List.mem_flatMap.mp member
  obtain ⟨rule, isRule, rfl, _⟩ := mem_conditionsFor_iff.mp inGroup
  exact (mem_firstOccurrences _ _).mpr (List.mem_map_of_mem isRule)

/-- Joining the condition of a group once more changes nothing unless it is too short a
disjunction. -/
theorem groupCondition_twice_iff (result : Literal) (rules : List Rule) :
    groupCondition [groupCondition (conditionsFor result rules)] =
        groupCondition (conditionsFor result rules) ↔
      ∀ parts, operandsFor result rules = [.junction .or parts] → 2 ≤ parts.length := by
  rw [groupCondition_singleton_eq_iff]
  constructor
  · intro several parts alone
    by_contra notSeveral
    have short : parts.length < 2 := Nat.lt_of_not_le notSeveral
    exact notSeveral (several parts ((groupCondition_eq_short_iff short).mpr alone))
  · intro several parts isDisjunction
    by_contra notSeveral
    have short : parts.length < 2 := Nat.lt_of_not_le notSeveral
    exact notSeveral (several parts ((groupCondition_eq_short_iff short).mp isDisjunction))

private theorem mergeRules_mergeRules_eq_iff (rules : List Rule) :
    mergeRules (mergeRules rules) = mergeRules rules ↔
      ∀ result parts, operandsFor result rules = [.junction .or parts] → 2 ≤ parts.length := by
  rw [mergeRules_mergeRules, mergeRules, List.map_inj_left]
  simp only [Rule.mk.injEq, and_true, groupCondition_twice_iff]
  constructor
  · intro several result parts alone
    have member : .junction .or parts ∈ operandsFor result rules := by
      rw [alone]
      exact List.mem_cons_self
    exact several result (mem_resultsOf_of_mem_operandsFor member) parts alone
  · intro several result _
    exact several result

/-- Flat conditions contribute no disjunction to a disjunction. -/
theorem operandsFor_ne_disjunction {rules : List Rule}
    (flat : ∀ rule ∈ rules, rule.condition.Flat) (result : Literal) (parts : List Condition) :
    operandsFor result rules ≠ [.junction .or parts] := by
  intro alone
  have member : .junction .or parts ∈ operandsFor result rules := by
    rw [alone]
    exact List.mem_cons_self
  obtain ⟨condition, inGroup, spliced⟩ := List.mem_flatMap.mp member
  obtain ⟨rule, isRule, _, rfl⟩ := mem_conditionsFor_iff.mp inGroup
  exact (Condition.fits_of_mem_splice (flat rule isRule) spliced).1 rfl

private theorem Model.merge_merge_eq_iff (model : Model) :
    model.merge.merge = model.merge ↔
      ∀ result parts, operandsFor result model.rules = [.junction .or parts] →
        2 ≤ parts.length := by
  rw [← mergeRules_mergeRules_eq_iff]
  constructor
  · exact congrArg Model.rules
  · exact congrArg model.withRules

/-- Merging names the results of the rules once each, in the order of their first appearance. It
changes a merged model only where a disjunction of fewer than two operands is all that the rules of
a result contribute, and so never one whose conditions were flat before merging. -/
theorem Model.merge_again (model : Model) :
    ((model.merge.rules.map Rule.result).Nodup ∧
      (∀ result, result ∈ model.merge.rules.map Rule.result ↔
        result ∈ model.rules.map Rule.result) ∧
      (model.merge.rules.map Rule.result).Pairwise fun earlier later =>
        firstPlace model.rules earlier < firstPlace model.rules later) ∧
    (model.merge.merge = model.merge ↔
      ∀ result parts, operandsFor result model.rules = [.junction .or parts] →
        2 ≤ parts.length) ∧
    ((∀ condition ∈ model.conditions, condition.Flat) → model.merge.merge = model.merge) := by
  have results : model.merge.rules.map Rule.result = resultsOf model.rules :=
    results_mergeRules model.rules
  rw [results]
  refine ⟨⟨firstOccurrences_nodup _, ?_, firstOccurrences_pairwise _⟩,
    model.merge_merge_eq_iff, ?_⟩
  · intro result
    exact mem_firstOccurrences result _
  · intro flat
    rw [model.merge_merge_eq_iff]
    intro result parts alone
    exact absurd alone (operandsFor_ne_disjunction (Model.flat_iff.mp flat) result parts)

/-- The rules for silence have flat conditions; those for a bell join to a disjunction. -/
def doorbell : Model where
  functionName := "doorbell"
  parameters := [⟨"pressed", .boolean⟩, ⟨"muted", .boolean⟩, ⟨"parcel", .boolean⟩]
  rules :=
    [⟨.junction .and [.var "muted", .not (.var "parcel")], .value .none⟩,
      ⟨.junction .or [.var "pressed", .var "parcel"], .value (.string "bell")⟩,
      ⟨.not (.var "pressed"), .value .none⟩,
      ⟨.comparison "muted" .eq (.bool false), .value (.string "bell")⟩]

theorem Model.merge_again_doorbell :
    (∀ condition ∈ doorbell.conditions, condition.Flat) ∧
      doorbell.merge.merge = doorbell.merge := by
  have flat : ∀ condition ∈ doorbell.conditions, condition.Flat := by decide
  exact ⟨flat, doorbell.merge_again.2.2 flat⟩

/-- A disjunction of one disjunction of one operand loses a layer each time. -/
def layered : Model where
  functionName := "layered"
  parameters := [⟨"a", .boolean⟩]
  rules := [⟨.junction .or [.junction .or [.var "a"]], .value (.int 1)⟩]

theorem Model.merge_layered_changes : layered.merge.merge ≠ layered.merge := by
  decide

end Rulebook
