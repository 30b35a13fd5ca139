import Rulebook.Smt.Encoding
import Rulebook.Proofs.Obligation
import Rulebook.Proofs.Occurrence

/-!
# Obligations are closed

The unknowns of an obligation are the parameters of its model and every other name that a condition
reads. The decision leaves out the rules behind one that always matches, so that it reads no other
names. Hence evaluation under bindings for all unknowns meets no unbound name, and encoding meets no
undeclared one: it fails only where the decision orders a name against something that is no number.
-/

namespace Rulebook

namespace Decision

private theorem conditions_foldr_branch (rules : List Rule) (last : Decision) :
    (rules.foldr (fun rule otherwise => branch rule.condition rule.result otherwise)
      last).conditions = rules.map Rule.condition ++ last.conditions := by
  induction rules with
  | nil => rfl
  | cons rule rest inductionHypothesis =>
      rw [List.foldr_cons, conditions, inductionHypothesis, List.map_cons, List.cons_append]

@[simp]
theorem conditions_ofRules (rules : List Rule) :
    (ofRules rules).conditions =
      (rules.takeWhile fun rule => !rule.isCatchAll).map Rule.condition := by
  rw [ofRules_eq_foldr, conditions_foldr_branch, conditions, List.append_nil]

/-- A decision fails because one of its conditions does. -/
theorem exists_failing_of_eval
    {env : Env} {decision : Decision} {error : EvalError}
    (fails : decision.eval env = .error error) :
    ∃ condition ∈ decision.conditions, condition.eval env = .error error := by
  induction decision with
  | leaf result => cases fails
  | branch condition result otherwise inductionHypothesis =>
      rw [eval] at fails
      split at fails
      · rename_i cause evaluated
        rw [← Except.error.inj fails]
        exact ⟨condition, List.mem_cons_self, evaluated⟩
      · cases fails
      · obtain ⟨later, member, laterFails⟩ := inductionHypothesis fails
        exact ⟨later, List.mem_cons_of_mem _ member, laterFails⟩

end Decision

namespace Model

variable {model : Model} {constraints : TextMap Constraint} {valid : List Literal}
  {obligation : Obligation}

private theorem mem_freeNames_iff {name : String} :
    name ∈ model.freeNames ↔
      name ∉ model.parameters.map Parameter.name ∧
        ∃ rule ∈ model.rules, rule.condition.Reads name := by
  rw [freeNames, List.mem_filter, SortedSet.mem_ofList_iff Text.compareText_eq_iff,
    parameter?_isNone_iff, List.mem_flatMap, and_comm]
  simp only [conditions, List.mem_map, exists_exists_and_eq_and, Condition.mem_names_iff]

private theorem freeNames_ascending (model : Model) :
    model.freeNames.Pairwise fun first second => Text.compareText first second = .lt :=
  (SortedSet.ofList_ascending Text.compareText_linear _).filter _

/-- The parameters come first, in their order, and the other names behind them. -/
theorem unknowns_of_obligation (built : model.obligation constraints valid = .ok obligation) :
    obligation.unknowns.map (fun var => (var.name, var.isParameter)) =
      model.parameters.map (fun parameter => (parameter.name, true)) ++
        model.freeNames.map fun name => (name, false) := by
  obtain ⟨unknowns, parametersBuilt, _, rfl⟩ := obligation_eq_ok built
  have sameNames := (parameterVariables_spec parametersBuilt).1
  have flagged := isParameter_of_parameterVariables parametersBuilt
  have parameters : unknowns.map (fun var => (var.name, var.isParameter)) =
      model.parameters.map fun parameter => (parameter.name, true) := by
    calc unknowns.map (fun var => (var.name, var.isParameter))
        = unknowns.map (fun var => (var.name, true)) := by
          apply List.map_congr_left
          intro var member
          rw [flagged var member]
      _ = (unknowns.map Variable.name).map fun name => (name, true) := by rw [List.map_map]; rfl
      _ = model.parameters.map fun parameter => (parameter.name, true) := by
          rw [sameNames, List.map_map]
          rfl
  rw [List.map_append, parameters, List.map_map]
  rfl

private theorem exists_unknown_of_reads
    (built : model.obligation constraints valid = .ok obligation) {rule : Rule}
    (listed : rule ∈ model.rules) {name : String} (reads : rule.condition.Reads name) :
    ∃ var ∈ obligation.unknowns, var.name = name := by
  by_cases isParameter : name ∈ model.parameters.map Parameter.name
  · obtain ⟨parameter, isListed, rfl⟩ := List.mem_map.mp isParameter
    obtain ⟨var, isUnknown, sameName, _⟩ := exists_unknown_of_parameter built isListed
    exact ⟨var, isUnknown, sameName⟩
  · have isFree := mem_freeNames_iff.mpr ⟨isParameter, rule, listed, reads⟩
    obtain ⟨unknowns, _, _, rfl⟩ := obligation_eq_ok built
    exact ⟨_, List.mem_append_right _ (List.mem_map_of_mem isFree), rfl⟩

/-- An obligation decides by the conditions of the rules up to the first that always matches. -/
theorem conditions_of_obligation (built : model.obligation constraints valid = .ok obligation) :
    obligation.decision.conditions =
      (model.rules.takeWhile fun rule => !rule.isCatchAll).map Rule.condition := by
  obtain ⟨unknowns, _, _, rfl⟩ := obligation_eq_ok built
  exact Decision.conditions_ofRules model.rules

/-- Every name that the decision reads is that of an unknown. -/
theorem exists_unknown_of_decision
    (built : model.obligation constraints valid = .ok obligation) {condition : Condition}
    (decides : condition ∈ obligation.decision.conditions) {name : String}
    (reads : condition.Reads name) : ∃ var ∈ obligation.unknowns, var.name = name := by
  rw [conditions_of_obligation built] at decides
  obtain ⟨rule, isBefore, rfl⟩ := List.mem_map.mp decides
  exact exists_unknown_of_reads built (List.takeWhile_subset _ isBefore) reads

end Model

/-! ## Encoding -/

namespace Smt

namespace Scope

variable {scope : Scope}

/-- A single test has no term, for the given reason. -/
inductive Refuses (scope : Scope) : Condition → EncodeError → Prop
  | untested {name : String} :
      scope.sorts.get? name = none → Refuses scope (.var name) (.undeclared name)
  | uncompared {name : String} {op : Comparator} {constant : Value} :
      scope.sorts.get? name = none → Refuses scope (.comparison name op constant) (.undeclared name)
  | unordered {name : String} {op : Comparator} {constant : Value} {sort : ValueSort} :
      scope.sorts.get? name = some sort → op.isEquality = false → constant.asInt? = none →
      Refuses scope (.comparison name op constant) (.unsupportedComparison name op constant)

theorem sort_of_get? {name : String} {sort : ValueSort}
    (declared : scope.sorts.get? name = some sort) : scope.sort name = .ok sort := by
  rw [Scope.sort, declared]

theorem sort_of_undeclared {name : String} (undeclared : scope.sorts.get? name = none) :
    scope.sort name = .error (.undeclared name) := by
  rw [Scope.sort, undeclared]

/-- Comparing a declared name fails only if it orders the name against something that is no
number. -/
theorem comparison_eq_error_iff
    {name : String} {op : Comparator} {constant : Value} {error : EncodeError} :
    scope.comparison name op constant = .error error ↔
      scope.Refuses (.comparison name op constant) error := by
  constructor
  · intro fails
    cases declared : scope.sorts.get? name with
    | none =>
        rw [Scope.comparison, sort_of_undeclared declared] at fails
        rw [← Except.error.inj fails]
        exact .uncompared declared
    | some sort =>
        simp only [Scope.comparison, sort_of_get? declared] at fails
        split at fails
        · cases fails
        · cases fails
        · cases numeric : constant.asInt? with
          | some value =>
              rw [numeric] at fails
              cases fails
          | none =>
              rw [numeric] at fails
              cases op with
              | eq | ne => cases fails
              | lt | le | gt | ge =>
                  cases fails
                  exact .unordered declared rfl numeric
  · intro refuses
    cases refuses with
    | uncompared undeclared => rw [Scope.comparison, sort_of_undeclared undeclared]
    | unordered declared ordering notNumber =>
        simp only [Scope.comparison, sort_of_get? declared]
        cases op with
        | eq | ne => cases ordering
        | lt | le | gt | ge => simp only [notNumber]

theorem var_eq_error_iff {name : String} {error : EncodeError} :
    scope.condition (.var name) = .error error ↔ scope.Refuses (.var name) error := by
  constructor
  · intro fails
    cases declared : scope.sorts.get? name with
    | none =>
        simp only [Scope.condition, sort_of_undeclared declared] at fails
        rw [← Except.error.inj fails]
        exact .untested declared
    | some sort =>
        simp only [Scope.condition, sort_of_get? declared] at fails
        cases sort <;> cases fails
  · intro refuses
    cases refuses with
    | untested undeclared => simp only [Scope.condition, sort_of_undeclared undeclared]

private theorem exists_error_of_conditions
    {parts : List Condition} {error : EncodeError} (fails : scope.conditions parts = .error error) :
    ∃ part ∈ parts, scope.condition part = .error error := by
  induction parts with
  | nil => cases fails
  | cons part rest inductionHypothesis =>
      rw [Scope.conditions] at fails
      split at fails
      · rename_i cause outcome
        rw [← Except.error.inj fails]
        exact ⟨part, List.mem_cons_self, outcome⟩
      · rw [map_eq_error_iff] at fails
        obtain ⟨later, member, laterFails⟩ := inductionHypothesis fails
        exact ⟨later, List.mem_cons_of_mem _ member, laterFails⟩

private theorem conditions_fail_of_mem
    {parts : List Condition} {part : Condition} (isPart : part ∈ parts)
    (fails : ∃ error, scope.condition part = .error error) :
    ∃ error, scope.conditions parts = .error error := by
  induction parts with
  | nil => cases isPart
  | cons first rest inductionHypothesis =>
      simp only [Scope.conditions]
      split
      · exact ⟨_, rfl⟩
      · rename_i term encoded
        simp only [map_eq_error_iff]
        rcases List.mem_cons.mp isPart with rfl | inRest
        · obtain ⟨error, refused⟩ := fails
          rw [encoded] at refused
          cases refused
        · exact inductionHypothesis inRest

/-- The error of an encoded condition is that of a test in it. -/
theorem exists_refused_of_condition
    {condition : Condition} {error : EncodeError}
    (fails : scope.condition condition = .error error) :
    ∃ node, condition.Contains node ∧ scope.Refuses node error := by
  induction condition using Condition.partsInduction with
  | literal value =>
      rw [Scope.condition] at fails
      cases fails
  | var name => exact ⟨_, .self _, var_eq_error_iff.mp fails⟩
  | comparison name op constant =>
      rw [Scope.condition] at fails
      exact ⟨_, .self _, comparison_eq_error_iff.mp fails⟩
  | junction kind parts inductionHypothesis =>
      rw [Scope.condition, map_eq_error_iff] at fails
      obtain ⟨part, isPart, partFails⟩ := exists_error_of_conditions fails
      obtain ⟨node, contains, refuses⟩ := inductionHypothesis part isPart partFails
      exact ⟨node, .part isPart contains, refuses⟩
  | not operand inductionHypothesis =>
      rw [Scope.condition, map_eq_error_iff] at fails
      obtain ⟨node, contains, refuses⟩ := inductionHypothesis fails
      exact ⟨node, .not contains, refuses⟩
  | verbatim text =>
      rw [Scope.condition] at fails
      cases fails

/-- A refused test makes every condition around it fail, though the error may be that of a test
met before. -/
theorem condition_fails_of_contains
    {condition node : Condition} (contains : condition.Contains node)
    (refused : ∃ error, scope.Refuses node error) :
    ∃ error, scope.condition condition = .error error := by
  induction contains with
  | self node =>
      obtain ⟨error, refuses⟩ := refused
      refine ⟨error, ?_⟩
      cases node with
      | var name => exact var_eq_error_iff.mpr refuses
      | comparison name op constant =>
          rw [Scope.condition]
          exact comparison_eq_error_iff.mpr refuses
      | literal _ | junction _ _ | not _ | verbatim _ => cases refuses
  | part isPart _ inductionHypothesis =>
      simp only [Scope.condition, map_eq_error_iff]
      exact conditions_fail_of_mem isPart (inductionHypothesis refused)
  | not _ inductionHypothesis =>
      simp only [Scope.condition, map_eq_error_iff]
      exact inductionHypothesis refused

/-- A decision is encoded as far as its conditions are, one after the other. -/
theorem decision_eq_error_iff {outputs : List Literal} {decision : Decision} {error : EncodeError} :
    scope.decision outputs decision = .error error ↔
      scope.conditions decision.conditions = .error error := by
  induction decision with
  | leaf result => exact iff_of_false (fun fails => nomatch fails) (fun fails => nomatch fails)
  | branch condition result otherwise inductionHypothesis =>
      rw [Scope.decision, Decision.conditions, Scope.conditions]
      cases scope.condition condition with
      | error cause => simp only [Except.error.injEq]
      | ok term => simp only [map_eq_error_iff, inductionHypothesis]

end Scope

private theorem scopeOf_declares
    {obligation : Obligation} {var : Variable} (unknown : var ∈ obligation.unknowns) :
    ∃ sort, (scopeOf obligation).sorts.get? var.name = some sort := by
  rw [← Option.ne_none_iff_exists', scopeOf, TextMap.get?_ofList, ne_eq, List.lookup_eq_none_iff]
  intro absent
  have differs := absent (var.name, var.sort)
    (List.mem_reverse.mpr (List.mem_map.mpr ⟨var, unknown, rfl⟩))
  simp at differs

/-- Encoding fails only at a condition of the decision. -/
theorem encode_eq_error_iff
    {obligation : Obligation} {timeout : Option Nat} {error : EncodeError} :
    encode obligation timeout = .error error ↔
      (scopeOf obligation).conditions obligation.decision.conditions = .error error := by
  rw [encode, map_eq_error_iff, Scope.decision_eq_error_iff]

end Smt

/-! ## Closed obligations -/

/-- The condition contains a comparison that orders a name against nothing or against a text. -/
def Condition.OrdersNonNumber (condition : Condition) : Prop :=
  ∃ name op constant, condition.Contains (.comparison name op constant) ∧
    op.isEquality = false ∧ (constant = .none ∨ ∃ text, constant = .string text)

theorem Value.asInt?_eq_none_iff {value : Value} :
    value.asInt? = Option.none ↔ value = .none ∨ ∃ text, value = .string text := by
  cases value <;> simp [asInt?]

namespace Model

variable {model : Model} {constraints : TextMap Constraint} {valid : List Literal}
  {obligation : Obligation}

theorem scopeOf_declares_of_decision
    (built : model.obligation constraints valid = .ok obligation) {condition : Condition}
    (decides : condition ∈ obligation.decision.conditions) {name : String}
    (reads : condition.Reads name) :
    ∃ sort, (Smt.scopeOf obligation).sorts.get? name = some sort := by
  obtain ⟨var, unknown, rfl⟩ := exists_unknown_of_decision built decides reads
  exact Smt.scopeOf_declares unknown

/-- A test that the decision makes is refused only if it orders a name against a constant that is no
number: its name is declared. -/
theorem ordering_of_refused
    (built : model.obligation constraints valid = .ok obligation) {condition node : Condition}
    (decides : condition ∈ obligation.decision.conditions) (contains : condition.Contains node)
    {error : Smt.EncodeError} (refuses : (Smt.scopeOf obligation).Refuses node error) :
    ∃ name op constant, node = .comparison name op constant ∧ op.isEquality = false ∧
      constant.asInt? = none ∧ error = .unsupportedComparison name op constant := by
  have declared : ∀ {name : String}, condition.Reads name →
      (Smt.scopeOf obligation).sorts.get? name ≠ none := by
    intro name reads
    exact Option.ne_none_iff_exists'.mpr (scopeOf_declares_of_decision built decides reads)
  cases refuses with
  | untested undeclared => exact absurd undeclared (declared (.inl contains))
  | uncompared undeclared => exact absurd undeclared (declared (.inr ⟨_, _, contains⟩))
  | unordered _ ordering notNumber => exact ⟨_, _, _, rfl, ordering, notNumber, rfl⟩

theorem exists_ordering_of_encode
    (built : model.obligation constraints valid = .ok obligation) {timeout : Option Nat}
    {error : Smt.EncodeError} (fails : Smt.encode obligation timeout = .error error) :
    ∃ condition ∈ obligation.decision.conditions, ∃ name op constant,
      condition.Contains (.comparison name op constant) ∧ op.isEquality = false ∧
        constant.asInt? = none ∧ error = .unsupportedComparison name op constant := by
  rw [Smt.encode_eq_error_iff] at fails
  obtain ⟨condition, decides, conditionFails⟩ := Smt.Scope.exists_error_of_conditions fails
  obtain ⟨node, contains, refuses⟩ := Smt.Scope.exists_refused_of_condition conditionFails
  obtain ⟨name, op, constant, rfl, facts⟩ := ordering_of_refused built decides contains refuses
  exact ⟨condition, decides, name, op, constant, contains, facts⟩

private theorem encode_fails_of_ordersNonNumber
    (built : model.obligation constraints valid = .ok obligation) (timeout : Option Nat)
    {condition : Condition} (decides : condition ∈ obligation.decision.conditions)
    (orders : condition.OrdersNonNumber) :
    ∃ error, Smt.encode obligation timeout = .error error := by
  obtain ⟨name, op, constant, contains, ordering, isConstant⟩ := orders
  obtain ⟨sort, declared⟩ := scopeOf_declares_of_decision built decides (.inr ⟨_, _, contains⟩)
  have refused : (Smt.scopeOf obligation).Refuses (.comparison name op constant)
      (.unsupportedComparison name op constant) :=
    .unordered declared ordering (Value.asInt?_eq_none_iff.mpr isConstant)
  simp only [Smt.encode_eq_error_iff]
  exact Smt.Scope.conditions_fail_of_mem decides
    (Smt.Scope.condition_fails_of_contains contains ⟨_, refused⟩)

/-- Encoding fails where a rule that counts orders a name against something that is no number. -/
theorem encode_fails_iff
    (built : model.obligation constraints valid = .ok obligation) (timeout : Option Nat) :
    (∃ error, Smt.encode obligation timeout = .error error) ↔
      ∃ rule ∈ model.rules.takeWhile (fun rule => !rule.isCatchAll),
        rule.condition.OrdersNonNumber := by
  have decides : ∀ condition, condition ∈ obligation.decision.conditions ↔
      ∃ rule ∈ model.rules.takeWhile (fun rule => !rule.isCatchAll),
        rule.condition = condition := by
    intro condition
    rw [conditions_of_obligation built, List.mem_map]
  constructor
  · rintro ⟨error, fails⟩
    obtain ⟨condition, isCondition, name, op, constant, contains, ordering, notNumber, _⟩ :=
      exists_ordering_of_encode built fails
    obtain ⟨rule, isBefore, rfl⟩ := (decides condition).mp isCondition
    exact ⟨rule, isBefore, name, op, constant, contains, ordering,
      Value.asInt?_eq_none_iff.mp notNumber⟩
  · rintro ⟨rule, isBefore, orders⟩
    exact encode_fails_of_ordersNonNumber built timeout
      ((decides rule.condition).mpr ⟨rule, isBefore, rfl⟩) orders

/-- Where the unknowns are bound, evaluation meets no name that is not. -/
theorem eval_ne_unbound
    (built : model.obligation constraints valid = .ok obligation) {env : Env}
    (bound : ∀ var ∈ obligation.unknowns, ∃ value, env.get? var.name = some value)
    (name : String) : obligation.decision.eval env ≠ .error (.unbound name) := by
  intro fails
  have isBound : ∀ condition ∈ obligation.decision.conditions, condition.Reads name →
      env.get? name ≠ none := by
    intro condition decides reads
    obtain ⟨var, unknown, rfl⟩ := exists_unknown_of_decision built decides reads
    exact Option.ne_none_iff_exists'.mpr (bound var unknown)
  obtain ⟨condition, decides, conditionFails⟩ := Decision.exists_failing_of_eval fails
  obtain ⟨node, contains, alone⟩ := Condition.exists_failing_of_eval conditionFails
  cases alone with
  | untested unbound => exact isBound condition decides (.inl contains) unbound
  | uncompared unbound => exact isBound condition decides (.inr ⟨_, _, contains⟩) unbound

/-- An obligation declares every name that its decision reads, so that neither evaluation nor
encoding meets a name it does not know. Its unknowns are the parameters, in their order, and behind
them the other names that conditions read, ascending. Encoding fails just where a rule in front of
those that are never reached orders a name against a constant that is no number. -/
theorem obligation_closed
    (built : model.obligation constraints valid = .ok obligation) :
    (∀ env : Env, (∀ var ∈ obligation.unknowns, ∃ value, env.get? var.name = some value) →
        ∀ name, obligation.decision.eval env ≠ .error (.unbound name)) ∧
      (∀ timeout name, Smt.encode obligation timeout ≠ .error (.undeclared name)) ∧
      (∀ timeout, (∃ error, Smt.encode obligation timeout = .error error) ↔
        ∃ rule ∈ model.rules.takeWhile (fun rule => !rule.isCatchAll),
          rule.condition.OrdersNonNumber) ∧
      ∃ free : List String,
        obligation.unknowns.map (fun var => (var.name, var.isParameter)) =
          model.parameters.map (fun parameter => (parameter.name, true)) ++
            free.map (fun name => (name, false)) ∧
        free.Pairwise (fun first second => Text.compareText first second = .lt) ∧
        ∀ name, name ∈ free ↔ name ∉ model.parameters.map Parameter.name ∧
          ∃ rule ∈ model.rules, rule.condition.Reads name := by
  refine ⟨fun _ bound => eval_ne_unbound built bound, ?_, encode_fails_iff built,
    model.freeNames, unknowns_of_obligation built, freeNames_ascending model,
    fun _ => mem_freeNames_iff⟩
  intro timeout name fails
  obtain ⟨_, _, _, _, _, _, _, _, isError⟩ := exists_ordering_of_encode built fails
  cases isError

/-- The last rule is never reached. -/
def ferry : Model where
  functionName := "ferry"
  parameters := [⟨"weight", .range 0 90⟩, ⟨"adult", .boolean⟩]
  rules :=
    [⟨.junction .and [.var "adult", .not (.comparison "season" .eq (.string "winter"))],
        .value (.string "full")⟩,
      ⟨.junction .or [.comparison "weight" .lt (.int 20), .comparison "berth" .gt (.int 3)],
        .value (.string "half")⟩,
      ⟨.literal true, .value .none⟩,
      ⟨.not (.comparison "deck" .ge (.string "B")), .value (.string "upper")⟩]

/-- The text in the last rule is no obstacle, unless the rules are reversed. Its name is an unknown
either way. -/
theorem obligation_closed_ferry :
    (∃ obligation, ferry.obligation {} [.value .none] = .ok obligation ∧
        obligation.unknowns.map Variable.name = ["weight", "adult", "berth", "deck", "season"] ∧
        ∀ timeout, ¬∃ error, Smt.encode obligation timeout = .error error) ∧
      ∃ obligation,
        { ferry with rules := ferry.rules.reverse }.obligation {} [.value .none] =
            .ok obligation ∧
          obligation.unknowns.map Variable.name = ["weight", "adult", "berth", "deck", "season"] ∧
          ∀ timeout, ∃ error, Smt.encode obligation timeout = .error error := by
  constructor
  · have built : ferry.obligation {} [.value .none] = .ok _ := rfl
    obtain ⟨_, _, failsIff, _⟩ := obligation_closed built
    refine ⟨_, built, rfl, ?_⟩
    intro timeout
    rw [failsIff timeout]
    rintro ⟨rule, isBefore, name, op, constant, contains, ordering, isConstant⟩
    rw [← Condition.mem_nodes_iff] at contains
    have eitherRule : rule = ferry.rules[0] ∨ rule = ferry.rules[1] := by
      simpa [ferry, Rule.isCatchAll, Condition.isTrue] using isBefore
    rcases eitherRule with rfl | rfl
    · obtain ⟨rfl, rfl, rfl⟩ : name = "season" ∧ op = .eq ∧ constant = .string "winter" := by
        simpa [ferry, Condition.nodes, Condition.nodesOf] using contains
      cases ordering
    · have either : (name = "weight" ∧ op = .lt ∧ constant = .int 20) ∨
          (name = "berth" ∧ op = .gt ∧ constant = .int 3) := by
        simpa [ferry, Condition.nodes, Condition.nodesOf] using contains
      rcases either with ⟨_, _, rfl⟩ | ⟨_, _, rfl⟩ <;> simp at isConstant
  · have built : { ferry with rules := ferry.rules.reverse }.obligation {} [.value .none] =
        .ok _ := rfl
    obtain ⟨_, _, failsIff, _⟩ := obligation_closed built
    refine ⟨_, built, rfl, ?_⟩
    intro timeout
    rw [failsIff timeout]
    exact ⟨_, List.mem_cons_self, "deck", .ge, .string "B", .not (.self _), rfl, .inr ⟨"B", rfl⟩⟩

end Model

end Rulebook
