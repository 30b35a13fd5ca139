import Rulebook.Proofs.Decision
import Rulebook.Proofs.LookupTable
import Rulebook.Proofs.Occurrence

/-!
# Tables without gaps

A model is well kinded if its conditions test nothing but parameters, order only those whose domain
has numbers alone, and order them against numbers. Under inputs from the domains each condition then
has a truth value. If moreover the last rule always matches, a rule is found for every combination
of inputs, and the lookup table has no gap.
-/

namespace Rulebook

/-- An error in the search for a rule is that of a condition. -/
theorem exists_failing_of_firstMatch
    {env : Env} {rules : List Rule} {error : EvalError}
    (fails : firstMatch env rules = .error error) :
    ∃ rule ∈ rules, rule.condition.eval env = .error error := by
  induction rules with
  | nil => cases fails
  | cons rule rest inductionHypothesis =>
      rw [firstMatch] at fails
      split at fails
      · rename_i cause outcome
        rw [← Except.error.inj fails]
        exact ⟨rule, List.mem_cons_self, outcome⟩
      · cases fails
      · rw [map_eq_error_iff] at fails
        obtain ⟨later, member, laterFails⟩ := inductionHypothesis fails
        exact ⟨later, List.mem_cons_of_mem _ member, laterFails⟩

private theorem Domain.asInt?_of_mem_sample
    {domain : Domain} (typed : domain ≠ .untyped) {name : String} {conditions : List Condition}
    {cutoff : Nat} {value : Value} (sampled : value ∈ domain.sample name conditions cutoff) :
    ∃ number, value.asInt? = some number := by
  cases domain with
  | boolean =>
      rcases List.mem_pair.mp sampled with rfl | rfl <;> exact ⟨_, rfl⟩
  | range min max =>
      obtain ⟨number, _, rfl⟩ := List.mem_map.mp sampled
      exact ⟨number, rfl⟩
  | untyped => exact absurd rfl typed

namespace Model

variable {model : Model}

/-- What a model may test: its parameters, of which only those with a type can be ordered, and
against numbers. Texts of conditions it may not keep. -/
def Admits (model : Model) : Condition → Prop
  | .var name => name ∈ model.parameters.map Parameter.name
  | .comparison name op constant =>
      ∃ parameter ∈ model.parameters, parameter.name = name ∧
        (op.isEquality = false → parameter.domain ≠ .untyped ∧ constant.asInt? ≠ none)
  | .verbatim _ => False
  | .literal _ | .junction _ _ | .not _ => True

instance (model : Model) : DecidablePred model.Admits := fun condition =>
  match condition with
  | .var name => inferInstanceAs (Decidable (name ∈ model.parameters.map Parameter.name))
  | .comparison name op constant =>
      inferInstanceAs (Decidable (∃ parameter ∈ model.parameters, parameter.name = name ∧
        (op.isEquality = false → parameter.domain ≠ .untyped ∧ constant.asInt? ≠ none)))
  | .verbatim _ => inferInstanceAs (Decidable False)
  | .literal _ | .junction _ _ | .not _ => inferInstanceAs (Decidable True)

/-- The parameters have different names, the last rule always matches, and no condition tests what
it may not. -/
structure WellKinded (model : Model) : Prop where
  distinct : (model.parameters.map Parameter.name).Nodup
  total : model.isTotal = true
  admitted : ∀ rule ∈ model.rules, ∀ node, rule.condition.Contains node → model.Admits node

/-- Whether a model is well kinded can be decided by a walk over its conditions. -/
theorem wellKinded_iff :
    model.WellKinded ↔
      (model.parameters.map Parameter.name).Nodup ∧ model.isTotal = true ∧
        ∀ rule ∈ model.rules, ∀ node ∈ rule.condition.nodes, model.Admits node := by
  simp only [Condition.mem_nodes_iff]
  constructor
  · intro wellKinded
    exact ⟨wellKinded.distinct, wellKinded.total, wellKinded.admitted⟩
  · rintro ⟨distinct, total, admitted⟩
    exact ⟨distinct, total, admitted⟩

instance (model : Model) : Decidable model.WellKinded := decidable_of_iff _ wellKinded_iff.symm

/-- Each parameter is bound, and to a number if it has a type. -/
def Suits (model : Model) (env : Env) : Prop :=
  ∀ parameter ∈ model.parameters, ∃ value, env.get? parameter.name = some value ∧
    (parameter.domain ≠ .untyped → ∃ number, value.asInt? = some number)

private theorem Suits.get?_ne_none
    {env : Env} (suits : model.Suits env) {parameter : Parameter}
    (listed : parameter ∈ model.parameters) : env.get? parameter.name ≠ none := by
  obtain ⟨value, bound, _⟩ := suits parameter listed
  exact Option.ne_none_iff_exists'.mpr ⟨value, bound⟩

private theorem suits_envOf
    (distinct : (model.parameters.map Parameter.name).Nodup) {cutoff : Nat} {inputs : List Value}
    (combined : inputs ∈ combinations (model.sampleLists cutoff)) :
    model.Suits (model.envOf inputs) := by
  have owned : List.Forall₂
      (fun parameter values =>
        values = parameter.domain.sample parameter.name model.conditions cutoff)
      model.parameters (model.sampleLists cutoff) := by
    rw [sampleLists, List.forall₂_map_right_iff]
    exact List.forall₂_same.mpr fun _ _ => rfl
  have numeric : List.Forall₂
      (fun parameter value =>
        parameter.domain ≠ .untyped → ∃ number, value.asInt? = some number)
      model.parameters inputs := by
    refine forall₂_of_combination owned ?_ combined
    intro parameter _ values isSample value sampled typed
    rw [isSample] at sampled
    exact Domain.asInt?_of_mem_sample typed sampled
  intro parameter listed
  exact Env.exists_get?_ofList_zip distinct numeric listed

/-- A test that the model may make never fails on suitable bindings. -/
theorem not_failsAlone_of_admits
    {env : Env} (suits : model.Suits env) {node : Condition} (admits : model.Admits node)
    (error : EvalError) : ¬ node.FailsAlone env error := by
  intro fails
  cases fails with
  | untested unbound =>
      obtain ⟨parameter, listed, rfl⟩ := List.mem_map.mp admits
      exact suits.get?_ne_none listed unbound
  | uncompared unbound =>
      obtain ⟨parameter, listed, rfl, _⟩ := admits
      exact suits.get?_ne_none listed unbound
  | unordered found ordering notNumbers =>
      obtain ⟨parameter, listed, rfl, ordered⟩ := admits
      obtain ⟨typed, constantNumeric⟩ := ordered ordering
      obtain ⟨value, bound, numeric⟩ := suits parameter listed
      obtain ⟨number, isNumber⟩ := numeric typed
      rw [found] at bound
      cases bound
      rcases notNumbers with valueNot | constantNot
      · rw [valueNot] at isNumber
        cases isNumber
      · exact constantNumeric constantNot
  | verbatim text => exact admits

/-- On suitable bindings every condition has a truth value. -/
theorem evaluable_of_suits
    (admitted : ∀ rule ∈ model.rules, ∀ node, rule.condition.Contains node → model.Admits node)
    {env : Env} (suits : model.Suits env) : Evaluable env model.rules := by
  intro rule listed
  cases outcome : rule.condition.eval env with
  | ok value => exact ⟨value, rfl⟩
  | error error =>
      obtain ⟨node, contains, fails⟩ := Condition.exists_failing_of_eval outcome
      exact absurd fails (not_failsAlone_of_admits suits (admitted rule listed node contains) error)

/-- Where the last rule always matches and all conditions have a truth value, a rule is found. -/
theorem exists_match_of_evaluable
    (total : model.isTotal = true) {env : Env} (evaluable : Evaluable env model.rules) :
    ∃ index, firstMatch env model.rules = .ok (some index) := by
  cases selection : firstMatch env model.rules with
  | error error =>
      obtain ⟨rule, listed, fails⟩ := exists_failing_of_firstMatch selection
      obtain ⟨value, holds⟩ := evaluable rule listed
      rw [fails] at holds
      cases holds
  | ok selected =>
      cases selected with
      | some index => exact ⟨index, rfl⟩
      | none =>
          obtain ⟨last, isLast, catchAll⟩ := (Option.any_eq_true _ _).mp total
          have isFalse := eval_of_firstMatch_eq_none selection last (List.mem_of_getLast? isLast)
          rw [Condition.isTrue_iff.mp catchAll] at isFalse
          cases isFalse

/-- Every combination of inputs in the table of a well kinded model has an outcome, that of a rule
which matches it. -/
theorem table_without_gaps (model : Model) (cutoff : Nat) (wellKinded : model.WellKinded) :
    (∀ entry ∈ (model.table cutoff).entries, ∃ index rule,
        model.rules[index]? = some rule ∧
          rule.condition.eval (model.envOf entry.inputs) = .ok true ∧
          entry.cell = .hit index rule.result) ∧
      (model.table cutoff).unknownCount = 0 := by
  have hits : ∀ entry ∈ (model.table cutoff).entries, ∃ index rule,
      model.rules[index]? = some rule ∧
        rule.condition.eval (model.envOf entry.inputs) = .ok true ∧
        entry.cell = .hit index rule.result := by
    rintro ⟨inputs, cell⟩ listed
    obtain ⟨combined, rfl⟩ := (model.mem_table_entries_iff cutoff inputs cell).mp listed
    have suits := suits_envOf wellKinded.distinct combined
    obtain ⟨index, selects⟩ := exists_match_of_evaluable wellKinded.total
      (evaluable_of_suits wellKinded.admitted suits)
    obtain ⟨rule, found, holds⟩ := exists_rule_of_firstMatch selects
    obtain ⟨same, sameFound, isHit⟩ := outcome_of_match selects
    rw [found] at sameFound
    cases sameFound
    exact ⟨index, rule, found, holds, isHit⟩
  refine ⟨hits, ?_⟩
  rw [LookupTable.unknownCount, List.countP_eq_zero]
  intro entry listed
  obtain ⟨index, rule, _, _, isHit⟩ := hits entry listed
  simp [isHit, Cell.rule?]

/-- The berth has no type, and is only compared for equality and tested for truth. -/
def cabin : Model where
  functionName := "cabin"
  parameters := [⟨"nights", .range 1 400⟩, ⟨"member", .boolean⟩, ⟨"berth", .untyped⟩]
  rules :=
    [⟨.junction .and [.comparison "nights" .ge (.int 7), .comparison "member" .gt (.bool false)],
        .value (.string "suite")⟩,
      ⟨.junction .or [.not (.var "berth"), .comparison "berth" .eq (.string "upper")],
        .value (.string "bunk")⟩,
      ⟨.literal true, .verbatim "assign(berth)"⟩]

/-- Neither the wide range nor the samples of the berth, some of which are no numbers, leave a
gap. -/
theorem table_without_gaps_cabin :
    cabin.WellKinded ∧ (cabin.table 10).entries.length = 40 ∧
      (cabin.table 10).unknownCount = 0 := by
  have wellKinded : cabin.WellKinded := by decide
  exact ⟨wellKinded, by decide +kernel, (table_without_gaps cabin 10 wellKinded).2⟩

end Model

end Rulebook
