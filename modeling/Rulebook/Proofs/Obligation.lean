import Rulebook.Proofs.Distinct
import Rulebook.Proofs.Evaluation
import Rulebook.Proofs.Smt.Valuation
import Rulebook.Proofs.TextMap
import Mathlib.Data.List.Nodup

/-!
# Obligations of models

Where the parameters of a model have different names, all unknowns of its obligation do, and each
constraint is on an unknown of the sort it asks for.
-/

namespace Rulebook

namespace Model

private theorem sort_of_parameterSort
    {model : Model} {parameter : Parameter} {constraint : Constraint} {sort : ValueSort}
    (fits : model.parameterSort parameter (some constraint) = .ok sort) :
    sort = constraint.sort := by
  obtain ⟨name, domain⟩ := parameter
  cases constraint <;> cases domain <;> cases fits <;> rfl

/-- The unknowns for parameters stand in the order of the parameters, each with a sort that its
constraint fits. -/
theorem parameterVariables_spec
    {model : Model} {constraints : TextMap Constraint}
    {parameters : List Parameter} {unknowns : List Variable}
    (built : model.parameterVariables constraints parameters = .ok unknowns) :
    unknowns.map Variable.name = parameters.map Parameter.name ∧
      ∀ parameter ∈ parameters, ∃ var ∈ unknowns, var.name = parameter.name ∧
        model.parameterSort parameter (constraints.get? parameter.name) = .ok var.sort := by
  induction parameters generalizing unknowns with
  | nil =>
      cases built
      simp
  | cons parameter rest inductionHypothesis =>
      rw [parameterVariables] at built
      split at built
      · cases built
      · rename_i sort fits
        obtain ⟨others, restBuilt, rfl⟩ := exists_ok_of_map_eq_ok built
        obtain ⟨sameNames, found⟩ := inductionHypothesis restBuilt
        refine ⟨by rw [List.map_cons, List.map_cons, sameNames], ?_⟩
        rw [List.forall_mem_cons]
        refine ⟨⟨_, List.mem_cons_self, rfl, fits⟩, ?_⟩
        intro other member
        obtain ⟨var, listed, facts⟩ := found other member
        exact ⟨var, List.mem_cons_of_mem _ listed, facts⟩

theorem isParameter_of_parameterVariables
    {model : Model} {constraints : TextMap Constraint}
    {parameters : List Parameter} {unknowns : List Variable}
    (built : model.parameterVariables constraints parameters = .ok unknowns) :
    ∀ var ∈ unknowns, var.isParameter = true := by
  induction parameters generalizing unknowns with
  | nil =>
      cases built
      simp
  | cons parameter rest inductionHypothesis =>
      rw [parameterVariables] at built
      split at built
      · cases built
      · obtain ⟨others, restBuilt, rfl⟩ := exists_ok_of_map_eq_ok built
        rw [List.forall_mem_cons]
        exact ⟨rfl, inductionHypothesis restBuilt⟩

theorem parameter?_isNone_iff (model : Model) (name : String) :
    (model.parameter? name).isNone = true ↔ name ∉ model.parameters.map Parameter.name := by
  rw [Option.isNone_iff_eq_none, parameter?, List.find?_eq_none]
  simp

/-- What an obligation consists of, once the constraints have been found to be on parameters and to
fit them. -/
theorem obligation_eq_ok
    {model : Model} {constraints : TextMap Constraint} {valid : List Literal}
    {obligation : Obligation} (built : model.obligation constraints valid = .ok obligation) :
    ∃ unknowns, model.parameterVariables constraints model.parameters = .ok unknowns ∧
      (∀ name ∈ constraints.keys, name ∈ model.parameters.map Parameter.name) ∧
      obligation =
        { functionName := model.functionName
          unknowns := unknowns ++
            model.freeNames.map fun name => ⟨name, model.usageSort name, false⟩
          decision := .ofRules model.rules
          constraints
          validOutputs := firstOccurrences valid } := by
  rw [Model.obligation] at built
  split at built
  · cases built
  · rename_i known
    split at built
    · cases built
    · rename_i unknowns parametersBuilt
      cases built
      refine ⟨unknowns, parametersBuilt, ?_, rfl⟩
      intro name member
      have isKnown := List.find?_eq_none.mp known name member
      rwa [parameter?_isNone_iff, not_not] at isKnown

private theorem freeNames_nodup (model : Model) : model.freeNames.Nodup :=
  List.Nodup.filter _ (SortedSet.ofList_nodup Text.compareText_linear _)

private theorem notMem_parameters_of_mem_freeNames
    {model : Model} {name : String} (free : name ∈ model.freeNames) :
    name ∉ model.parameters.map Parameter.name :=
  (model.parameter?_isNone_iff name).mp (List.mem_filter.mp free).2

/-- The names of parameters and the names that conditions read. -/
def names (model : Model) : List String :=
  model.parameters.map Parameter.name ++ model.conditions.flatMap Condition.names

end Model

/-- All unknowns have different names, and each constraint is on one of the sort it asks for. -/
structure Obligation.WellSorted (obligation : Obligation) : Prop where
  distinct : (obligation.unknowns.map Variable.name).Nodup
  constrained : ∀ {name : String} {constraint : Constraint},
    obligation.constraints.get? name = some constraint →
      ∃ var ∈ obligation.unknowns, var.name = name ∧ var.sort = constraint.sort

theorem Obligation.WellSorted.sort_eq
    {obligation : Obligation} (wellSorted : obligation.WellSorted)
    {var : Variable} (unknown : var ∈ obligation.unknowns) {constraint : Constraint}
    (known : obligation.constraints.get? var.name = some constraint) :
    constraint.sort = var.sort := by
  obtain ⟨other, otherUnknown, sameName, sameSort⟩ := wellSorted.constrained known
  have same : other = var :=
    List.inj_on_of_nodup_map wellSorted.distinct otherUnknown unknown sameName
  rw [← same, sameSort]

namespace Model

variable {model : Model} {constraints : TextMap Constraint} {valid : List Literal}
  {obligation : Obligation}

/-- Free names are different from each other and from all parameters, so that only parameters could
share a name. -/
theorem obligation_wellSorted
    (distinct : (model.parameters.map Parameter.name).Nodup)
    (built : model.obligation constraints valid = .ok obligation) : obligation.WellSorted := by
  obtain ⟨unknowns, parametersBuilt, known, rfl⟩ := obligation_eq_ok built
  obtain ⟨sameNames, found⟩ := parameterVariables_spec parametersBuilt
  constructor
  · have freeNames : (model.freeNames.map fun name =>
        (⟨name, model.usageSort name, false⟩ : Variable)).map Variable.name = model.freeNames := by
      simp [Function.comp_def]
    rw [List.map_append, sameNames, freeNames]
    refine distinct.append (freeNames_nodup model) ?_
    intro name isParameter isFree
    exact notMem_parameters_of_mem_freeNames isFree isParameter
  · intro name constraint constrained
    have isKey : name ∈ constraints.keys :=
      List.mem_map.mpr ⟨_, (TextMap.mem_entries_iff _ _ _).mpr constrained, rfl⟩
    obtain ⟨parameter, listed, rfl⟩ := List.mem_map.mp (known name isKey)
    obtain ⟨var, isUnknown, sameName, fits⟩ := found parameter listed
    change constraints.get? parameter.name = some constraint at constrained
    rw [constrained] at fits
    exact ⟨var, List.mem_append_left _ isUnknown, sameName, sort_of_parameterSort fits⟩

theorem exists_unknown_of_parameter
    (built : model.obligation constraints valid = .ok obligation) {parameter : Parameter}
    (listed : parameter ∈ model.parameters) :
    ∃ var ∈ obligation.unknowns, var.name = parameter.name ∧ var.isParameter = true := by
  obtain ⟨unknowns, parametersBuilt, _, rfl⟩ := obligation_eq_ok built
  obtain ⟨_, found⟩ := parameterVariables_spec parametersBuilt
  obtain ⟨var, isUnknown, sameName, _⟩ := found parameter listed
  exact ⟨var, List.mem_append_left _ isUnknown, sameName,
    isParameter_of_parameterVariables parametersBuilt var isUnknown⟩

theorem mem_names_of_unknown
    (built : model.obligation constraints valid = .ok obligation) {var : Variable}
    (unknown : var ∈ obligation.unknowns) : var.name ∈ model.names := by
  obtain ⟨unknowns, parametersBuilt, _, rfl⟩ := obligation_eq_ok built
  obtain ⟨sameNames, _⟩ := parameterVariables_spec parametersBuilt
  rcases List.mem_append.mp unknown with isParameter | isFree
  · refine List.mem_append_left _ ?_
    rw [← sameNames]
    exact List.mem_map_of_mem isParameter
  · obtain ⟨name, free, rfl⟩ := List.mem_map.mp isFree
    refine List.mem_append_right _ ?_
    exact (SortedSet.mem_ofList_iff Text.compareText_eq_iff _ _).mp (List.mem_filter.mp free).1

end Model

end Rulebook
