import Rulebook.Proofs.LookupTable
import Mathlib.Data.Finset.Max

/-!
# Samples represent their domains

Every integer of a range compares with all thresholds as some sampled one does: the greatest sample
that is not above it. No threshold lies strictly between the two, since the successor of a threshold
is sampled as well, and a threshold that equals the integer is itself sampled.

The conditions of a model tell integers apart by these comparisons alone, as long as no integer is
tested for truth or compared with a truth value. So the table has an entry for every assignment of
the parameters, however wide their ranges are, on which the model comes to the same.
-/

namespace Rulebook

/-- Two integers compare alike with every threshold. -/
def ComparesAlike (thresholds : List Int64) (first second : Int64) : Prop :=
  ∀ threshold ∈ thresholds, compareInt first threshold = compareInt second threshold

private theorem exists_greatest_below
    {samples : List Int64} {value least : Int64}
    (sampled : least ∈ samples) (below : least.toInt ≤ value.toInt) :
    ∃ greatest ∈ samples, greatest.toInt ≤ value.toInt ∧
      ∀ sample ∈ samples, sample.toInt ≤ value.toInt → sample.toInt ≤ greatest.toInt := by
  have nonempty : (samples.filter (·.toInt ≤ value.toInt)).toFinset.Nonempty :=
    ⟨least, by simp [sampled, below]⟩
  obtain ⟨greatest, member, isGreatest⟩ := Finset.exists_max_image _ Int64.toInt nonempty
  simp only [List.mem_toFinset, List.mem_filter, decide_eq_true_eq] at member isGreatest
  exact ⟨greatest, member.1, member.2, fun sample isSample low => isGreatest sample ⟨isSample, low⟩⟩

/-- Every integer of a range compares with the thresholds as one of its samples does. -/
theorem exists_sample_comparesAlike
    {min max value : Int64} (thresholds : Thresholds) (cutoff : Nat)
    (lower : min.toInt ≤ value.toInt) (upper : value.toInt ≤ max.toInt) :
    ∃ sample ∈ sampleIntegers min max thresholds cutoff,
      ComparesAlike thresholds.all value sample := by
  have minSampled : min ∈ sampleIntegers min max thresholds cutoff :=
    mem_sampleIntegers_iff.mpr ⟨by omega, .inr (.inl rfl)⟩
  obtain ⟨sample, sampled, below, greatest⟩ := exists_greatest_below minSampled lower
  have minBelow : min.toInt ≤ sample.toInt := greatest min minSampled lower
  refine ⟨sample, sampled, ?_⟩
  intro threshold isThreshold
  have nearSampled : ∀ near : Int64, threshold.toInt - 1 ≤ near.toInt →
      near.toInt ≤ threshold.toInt + 1 → min.toInt ≤ near.toInt → near.toInt ≤ value.toInt →
        near.toInt ≤ sample.toInt := by
    intro near afterThreshold beforeThreshold inRange notAbove
    have isSampled : near ∈ sampleIntegers min max thresholds cutoff :=
      mem_sampleIntegers_iff.mpr ⟨by omega,
        .inr (.inr (.inr ⟨threshold, isThreshold, afterThreshold, beforeThreshold⟩))⟩
    exact greatest near isSampled notAbove
  rcases lt_trichotomy value.toInt threshold.toInt with before | same | after
  · rw [(compareInt_eq_lt_iff value threshold).mpr before,
      (compareInt_eq_lt_iff sample threshold).mpr (by omega)]
  · have reached := nearSampled threshold (by omega) (by omega) (by omega) (by omega)
    have sameSample : sample = value := Int64.toInt_inj.mp (by omega)
    rw [sameSample]
  · have successorWord : (Int64.ofInt (threshold.toInt + 1)).toInt = threshold.toInt + 1 :=
      toInt_ofInt_between (Int.le_add_one (le_refl threshold.toInt)) after
    have sampleAfter : threshold.toInt < sample.toInt := by
      by_cases inRange : min.toInt ≤ threshold.toInt + 1
      · have reached := nearSampled (Int64.ofInt (threshold.toInt + 1))
          (by omega) (by omega) (by omega) (by omega)
        omega
      · omega
    rw [compareInt_swap value, compareInt_swap sample,
      (compareInt_eq_lt_iff threshold value).mpr after,
      (compareInt_eq_lt_iff threshold sample).mpr sampleAfter]

/-- No condition tells the two values of a name apart. -/
structure Indistinct (conditions : List Condition) (name : String) (first second : Value) :
    Prop where
  tested : ∀ condition ∈ conditions, .var name ∈ condition.nodes → first.truthy = second.truthy
  compared : ∀ condition ∈ conditions, ∀ op constant,
    .comparison name op constant ∈ condition.nodes →
      (first.related op constant).toOption = (second.related op constant).toOption

private theorem Indistinct.refl (conditions : List Condition) (name : String) (value : Value) :
    Indistinct conditions name value value :=
  ⟨fun _ _ _ => rfl, fun _ _ _ _ _ => rfl⟩

private theorem related_of_comparesAlike
    {thresholds : List Int64} {first second : Int64}
    (alike : ComparesAlike thresholds first second) (op : Comparator) {constant : Value}
    (notBool : ∀ value, constant ≠ .bool value)
    (known : ∀ threshold, constant = .int threshold → threshold ∈ thresholds) :
    ((Value.int first).related op constant).toOption =
      ((Value.int second).related op constant).toOption := by
  cases constant with
  | bool value => exact absurd rfl (notBool value)
  | int threshold =>
      have same : compare first.toInt threshold.toInt = compare second.toInt threshold.toInt :=
        alike threshold (known threshold rfl)
      simp only [Value.related, Value.asInt?, same]
  | none => cases op <;> rfl
  | string text => cases op <;> rfl

/-- A condition has the same truth value under bindings that it does not tell apart. -/
theorem truth_of_indistinct
    {conditions : List Condition} {env other : Env}
    (indistinct : ∀ name, Option.Rel (Indistinct conditions name) (env.get? name)
      (other.get? name))
    {condition : Condition} (listed : condition ∈ conditions) :
    condition.truth env = condition.truth other := by
  apply Condition.truth_congr_atoms
  intro atom node reads
  cases atom with
  | var name =>
      rw [Condition.truth_var, Condition.truth_var]
      have boundAlike := indistinct name
      generalize env.get? name = bound, other.get? name = otherBound at boundAlike ⊢
      cases boundAlike with
      | none => rfl
      | some alike => exact congrArg some (alike.tested condition listed node)
  | comparison name op constant =>
      rw [Condition.truth_comparison, Condition.truth_comparison]
      have boundAlike := indistinct name
      generalize env.get? name = bound, other.get? name = otherBound at boundAlike ⊢
      cases boundAlike with
      | none => rfl
      | some alike => exact alike.compared condition listed op constant node
  | literal _ | junction _ _ | not _ | verbatim _ => cases reads

def Domain.Contains : Domain → Value → Prop
  | .boolean, value => ∃ truth, value = .bool truth
  | .range min max, value =>
      ∃ integer, value = .int integer ∧ min.toInt ≤ integer.toInt ∧ integer.toInt ≤ max.toInt
  | .untyped, _ => True

namespace Model

/-- The parameters have different names and are truth values or integers of a range that is not
empty. Integers are neither tested for truth nor compared with truth values. -/
structure Sampleable (model : Model) : Prop where
  distinct : (model.parameters.map Parameter.name).Nodup
  typed : ∀ parameter ∈ model.parameters, parameter.domain = .boolean ∨
    ∃ min max, parameter.domain = .range min max ∧ min.toInt ≤ max.toInt
  untested : ∀ condition ∈ model.conditions, ∀ name, .var name ∈ condition.nodes →
    ∀ min max, ⟨name, .range min max⟩ ∉ model.parameters
  unmixed : ∀ condition ∈ model.conditions, ∀ name op truth,
    .comparison name op (.bool truth) ∈ condition.nodes →
      ∀ min max, ⟨name, .range min max⟩ ∉ model.parameters

/-- Each parameter has a value of its domain, and nothing else is bound. -/
structure Assigns (model : Model) (env : Env) : Prop where
  bound : ∀ parameter ∈ model.parameters,
    ∃ value, env.get? parameter.name = some value ∧ parameter.domain.Contains value
  unbound : ∀ name, name ∉ model.parameters.map Parameter.name → env.get? name = none

variable {model : Model}

/-- Every value of a domain has a sample that no condition tells apart from it. -/
theorem exists_sample_indistinct
    (sampleable : model.Sampleable) (cutoff : Nat)
    {parameter : Parameter} (isParameter : parameter ∈ model.parameters)
    {value : Value} (contained : parameter.domain.Contains value) :
    ∃ sample ∈ parameter.domain.sample parameter.name model.conditions cutoff,
      Indistinct model.conditions parameter.name value sample := by
  obtain ⟨name, domain⟩ := parameter
  rcases sampleable.typed _ isParameter with isBoolean | ⟨min, max, isRange, _⟩
  · change domain = .boolean at isBoolean
    subst isBoolean
    obtain ⟨truth, rfl⟩ := contained
    refine ⟨.bool truth, ?_, Indistinct.refl _ _ _⟩
    cases truth <;> simp [Domain.sample]
  · change domain = .range min max at isRange
    subst isRange
    obtain ⟨integer, rfl, lower, upper⟩ := contained
    obtain ⟨sample, sampled, alike⟩ :=
      exists_sample_comparesAlike (Thresholds.collect name model.conditions) cutoff lower upper
    refine ⟨.int sample, List.mem_map.mpr ⟨sample, sampled, rfl⟩, ?_, ?_⟩
    · intro condition listed node
      exact absurd isParameter (sampleable.untested condition listed name node min max)
    · intro condition listed op constant node
      apply related_of_comparesAlike alike op
      · rintro truth rfl
        exact sampleable.unmixed condition listed name op truth node min max isParameter
      · rintro threshold rfl
        exact Thresholds.mem_all_collect_iff.mpr ⟨condition, listed, op, node⟩

/-- Some combination of samples is not told apart from the assignment by any condition. -/
theorem exists_combination_indistinct
    (sampleable : model.Sampleable) (cutoff : Nat) {env : Env} (assigns : model.Assigns env) :
    ∃ inputs ∈ combinations (model.sampleLists cutoff),
      ∀ name, Option.Rel (Indistinct model.conditions name) (env.get? name)
        ((model.envOf inputs).get? name) := by
  have owned : List.Forall₂
      (fun parameter values =>
        values = parameter.domain.sample parameter.name model.conditions cutoff)
      model.parameters (model.sampleLists cutoff) := by
    rw [sampleLists, List.forall₂_map_right_iff, List.forall₂_same]
    exact fun _ _ => rfl
  have represented : ∀ parameter ∈ model.parameters, ∀ values,
      values = parameter.domain.sample parameter.name model.conditions cutoff →
        ∃ sample ∈ values, ∃ value, env.get? parameter.name = some value ∧
          Indistinct model.conditions parameter.name value sample := by
    rintro parameter isParameter _ rfl
    obtain ⟨value, found, contained⟩ := assigns.bound parameter isParameter
    obtain ⟨sample, sampled, alike⟩ :=
      exists_sample_indistinct sampleable cutoff isParameter contained
    exact ⟨sample, sampled, value, found, alike⟩
  obtain ⟨inputs, listed, chosen⟩ := exists_combination owned represented
  refine ⟨inputs, listed, ?_⟩
  intro name
  by_cases isParameter : name ∈ model.parameters.map Parameter.name
  · obtain ⟨parameter, isListed, rfl⟩ := List.mem_map.mp isParameter
    obtain ⟨sample, inputFound, value, found, alike⟩ :=
      Env.exists_get?_ofList_zip sampleable.distinct chosen isListed
    rw [envOf, found, inputFound]
    exact .some alike
  · rw [assigns.unbound name isParameter, envOf, Env.get?_ofList_zip_eq_none isParameter]
    exact .none

/-- For every assignment of the parameters the table has an entry with the rule that matches first,
or without a rule where none matches or the search fails. A rule that no entry hits is therefore
not the first match of any assignment. -/
theorem table_representative
    (model : Model) (cutoff : Nat) (sampleable : model.Sampleable)
    (env : Env) (assigns : model.Assigns env) :
    (∃ entry ∈ (model.table cutoff).entries,
      (∀ index, firstMatch env model.rules = .ok (some index) →
        ∃ rule, model.rules[index]? = some rule ∧ entry.cell = .hit index rule.result) ∧
      (firstMatch env model.rules = .ok none → entry.cell = .unknown .noMatch) ∧
      (∀ error, firstMatch env model.rules = .error error →
        ∃ cause, entry.cell = .unknown (.failure cause))) ∧
    ∀ index, (∀ entry ∈ (model.table cutoff).entries, entry.cell.rule? ≠ some index) →
      firstMatch env model.rules ≠ .ok (some index) := by
  obtain ⟨inputs, listed, indistinct⟩ := exists_combination_indistinct sampleable cutoff assigns
  have same : (firstMatch env model.rules).toOption =
      (firstMatch (model.envOf inputs) model.rules).toOption := by
    apply firstMatch_toOption_congr
    intro rule isRule
    exact truth_of_indistinct indistinct (List.mem_map_of_mem isRule)
  have transferred : ∀ selected, firstMatch env model.rules = .ok selected →
      firstMatch (model.envOf inputs) model.rules = .ok selected := by
    intro selected selects
    rw [← toOption_eq_some_iff, ← same, toOption_eq_some_iff]
    exact selects
  have member := (mem_table_entries_iff model cutoff inputs _).mpr ⟨listed, rfl⟩
  have hits : ∀ index, firstMatch env model.rules = .ok (some index) →
      ∃ rule, model.rules[index]? = some rule ∧
        model.outcome (model.envOf inputs) = .hit index rule.result :=
    fun index selects => outcome_of_match (transferred _ selects)
  refine ⟨⟨_, member, hits, ?_, ?_⟩, ?_⟩
  · intro selects
    rw [outcome, transferred none selects]
  · intro error fails
    rw [fails] at same
    obtain ⟨cause, failsAlike⟩ := toOption_eq_none_iff.mp same.symm
    exact ⟨cause, by rw [outcome, failsAlike]⟩
  · intro index neverHit selects
    obtain ⟨rule, _, isHit⟩ := hits index selects
    apply neverHit _ member
    rw [isHit, Cell.rule?]

/-- A model of all amounts. -/
def transfer : Model where
  functionName := "transfer"
  parameters := [⟨"amount", .range Int64.minValue Int64.maxValue⟩, ⟨"trusted", .boolean⟩]
  rules :=
    [⟨.comparison "amount" .le (.int Int64.minValue), .value (.string "refuse")⟩,
      ⟨.junction .and [.var "trusted", .comparison "amount" .lt (.int 1000)],
        .value (.string "pass")⟩,
      ⟨.comparison "amount" .eq (.int Int64.maxValue), .value (.string "refuse")⟩]

/-- An amount far from all that amounts are compared with. -/
theorem table_representative_transfer :
    transfer.Sampleable ∧
    transfer.Assigns (.ofList [("amount", .int (-123456789)), ("trusted", .bool true)]) ∧
    ∃ entry ∈ (transfer.table 100).entries,
      entry.cell = .hit 1 (.value (.string "pass")) := by
  have sampleable : transfer.Sampleable := by
    refine ⟨by decide, ?_, ?_, ?_⟩
    · have ordered : Int64.minValue.toInt ≤ Int64.maxValue.toInt := by decide
      simpa [transfer] using ordered
    · simp [transfer, conditions, Condition.nodes, Condition.nodesOf]
    · simp [transfer, conditions, Condition.nodes, Condition.nodesOf]
  have assigns : transfer.Assigns
      (.ofList [("amount", .int (-123456789)), ("trusted", .bool true)]) := by
    constructor
    · intro parameter isParameter
      rcases List.mem_pair.mp isParameter with rfl | rfl
      · exact ⟨.int (-123456789), by decide, -123456789, rfl, by decide, by decide⟩
      · exact ⟨.bool true, by decide, true, rfl⟩
    · intro name isOther
      exact Env.get?_ofList_eq_none isOther
  refine ⟨sampleable, assigns, ?_⟩
  obtain ⟨⟨entry, listed, hits, _⟩, _⟩ := table_representative transfer 100 sampleable _ assigns
  obtain ⟨rule, isRule, isHit⟩ := hits 1 (by decide)
  cases isRule
  exact ⟨entry, listed, isHit⟩

end Model

end Rulebook
