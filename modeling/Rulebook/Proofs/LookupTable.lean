import Rulebook.LookupTable
import Rulebook.Proofs.Combinations
import Rulebook.Proofs.FirstMatch
import Rulebook.Proofs.Odometer
import Rulebook.Proofs.Samples
import Rulebook.Proofs.TextMap

/-!
# Lookup tables list and find every combination

The entries of a table are the combinations of the sampled values, each once and in lexicographic
order, with the outcome of the rules under them. Counting places finds the entry of a combination:
the index of a place in the first list is worth as many entries as there are combinations of the
other lists. Inputs given by name are found whatever their order and whatever else is given.
-/

namespace Rulebook

/-- The cell says what a search for a rule has come to. -/
def Cell.Reports (rules : List Rule) : Cell → Except EvalError (Option Nat) → Prop
  | .hit index result, outcome =>
      outcome = .ok (some index) ∧ rules[index]?.map Rule.result = some result
  | .unknown .noMatch, outcome => outcome = .ok none
  | .unknown (.failure cause), outcome => outcome = .error cause

theorem Model.outcome_of_match
    {model : Model} {env : Env} {index : Nat}
    (selects : firstMatch env model.rules = .ok (some index)) :
    ∃ rule, model.rules[index]? = some rule ∧ model.outcome env = .hit index rule.result := by
  obtain ⟨rule, found, _⟩ := exists_rule_of_firstMatch selects
  exact ⟨rule, found, by simp only [outcome, selects, found]⟩

/-- The outcome of a model reports the search of its rules. -/
theorem Model.outcome_reports (model : Model) (env : Env) :
    (model.outcome env).Reports model.rules (firstMatch env model.rules) := by
  cases selection : firstMatch env model.rules with
  | error cause =>
      rw [outcome, selection]
      rfl
  | ok selected =>
      cases selected with
      | none =>
          rw [outcome, selection]
          rfl
      | some index =>
          obtain ⟨rule, found, isHit⟩ := outcome_of_match selection
          rw [isHit]
          exact ⟨rfl, by rw [found, Option.map_some]⟩

namespace LookupTable

/-- The entry with the given inputs stands after `count` full rounds of combinations. -/
theorem exists_offset_of_index?
    {count index : Nat} {samples : List Samples} {inputs : List Value}
    (found : index? count samples inputs = some index) :
    ∃ offset, index = count * (combinations (samples.map Samples.values)).length + offset ∧
      (combinations (samples.map Samples.values))[offset]? = some inputs := by
  induction samples generalizing count inputs with
  | nil =>
      cases inputs with
      | cons _ _ => cases found
      | nil =>
          cases found
          exact ⟨0, by simp [combinations], rfl⟩
  | cons first rest inductionHypothesis =>
      cases inputs with
      | nil => cases found
      | cons input others =>
          rw [index?] at found
          split at found
          · rename_i place isPlace
            obtain ⟨inBounds, atPlace, _⟩ := List.idxOf?_eq_some_iff.mp isPlace
            obtain ⟨offset, isIndex, atOffset⟩ := inductionHypothesis found
            refine ⟨place * (combinations (rest.map Samples.values)).length + offset, ?_, ?_⟩
            · rw [List.map_cons, length_combinations_cons, isIndex]
              rw [Nat.add_mul, Nat.mul_assoc, Nat.add_assoc]
            · apply getElem?_combinations_cons _ atOffset
              rw [List.getElem?_eq_getElem inBounds, atPlace]
          · cases found

/-- Every count on the way to an index is at most the index, and the index stays below the number of
combinations that the count can still reach. -/
theorem index?_bounds
    {count index : Nat} {samples : List Samples} {inputs : List Value}
    (found : index? count samples inputs = some index) :
    count ≤ index ∧ index < (count + 1) * (combinations (samples.map Samples.values)).length := by
  obtain ⟨offset, isIndex, atOffset⟩ := exists_offset_of_index? found
  have inBounds := (List.getElem?_eq_some_iff.mp atOffset).1
  have grows := Nat.le_mul_of_pos_right count (Nat.zero_lt_of_lt inBounds)
  rw [Nat.succ_mul]
  omega

/-- Inputs have an index exactly if each of them was sampled for its parameter. -/
theorem index?_isSome_iff (count : Nat) (samples : List Samples) (inputs : List Value) :
    (∃ index, index? count samples inputs = some index) ↔
      List.Forall₂ (fun input values => input ∈ values) inputs (samples.map Samples.values) := by
  induction samples generalizing count inputs with
  | nil =>
      cases inputs with
      | nil => simp [index?]
      | cons _ _ => simp [index?]
  | cons first rest inductionHypothesis =>
      cases inputs with
      | nil => simp [index?]
      | cons input others =>
          rw [List.map_cons, List.forall₂_cons]
          cases isPlace : first.values.idxOf? input with
          | none =>
              have absent : input ∉ first.values := List.idxOf?_eq_none_iff.mp isPlace
              simp [index?, isPlace, absent]
          | some place =>
              have sampled : input ∈ first.values :=
                List.isSome_idxOf?.mp (by rw [isPlace, Option.isSome_some])
              simp only [index?, isPlace, sampled, true_and]
              exact inductionHypothesis _ _

end LookupTable

namespace Model

variable (model : Model) (cutoff : Nat)

/-- The values that represent each parameter. -/
def sampleLists : List (List Value) :=
  model.parameters.map fun parameter =>
    parameter.domain.sample parameter.name model.conditions cutoff

/-- The bindings under which the parameters take the given inputs. -/
def envOf (inputs : List Value) : Env :=
  .ofList ((model.parameters.map Parameter.name).zip inputs)

@[simp]
theorem samples_values : (model.samples cutoff).map Samples.values = model.sampleLists cutoff := by
  simp only [samples, sampleLists, List.map_map]
  rfl

@[simp]
theorem samples_parameter :
    (model.samples cutoff).map Samples.parameter = model.parameters.map Parameter.name := by
  simp only [samples, List.map_map]
  rfl

private theorem sampleLists_nodup : ∀ values ∈ model.sampleLists cutoff, values.Nodup := by
  intro values member
  obtain ⟨parameter, _, rfl⟩ := List.mem_map.mp member
  exact Domain.sample_nodup _ _ _ _

/-- Each combination of samples has an entry, in order, with the outcome under it. -/
theorem table_entries :
    (model.table cutoff).entries = (combinations (model.sampleLists cutoff)).map fun inputs =>
      ⟨inputs, model.outcome (model.envOf inputs)⟩ := by
  simp only [table, samples_values, samples_parameter]
  rfl

/-- The entries are what an odometer over the samples shows, with the outcomes. -/
theorem table_entries_of_turns
    {shown : List (List Value)}
    (turned : Turns (model.sampleLists cutoff)
      (startingPlaces ((model.sampleLists cutoff).map List.length)) shown) :
    (model.table cutoff).entries =
      shown.map fun inputs => ⟨inputs, model.outcome (model.envOf inputs)⟩ := by
  rw [table_entries, (turns_iff.mp turned).2]

@[simp]
theorem table_inputs :
    (model.table cutoff).entries.map TableEntry.inputs =
      combinations (model.sampleLists cutoff) := by
  rw [table_entries, List.map_map]
  exact List.map_id _

theorem mem_table_entries_iff (inputs : List Value) (cell : Cell) :
    ⟨inputs, cell⟩ ∈ (model.table cutoff).entries ↔
      inputs ∈ combinations (model.sampleLists cutoff) ∧
        cell = model.outcome (model.envOf inputs) := by
  rw [table_entries, List.mem_map]
  constructor
  · rintro ⟨others, member, same⟩
    cases same
    exact ⟨member, rfl⟩
  · rintro ⟨member, rfl⟩
    exact ⟨inputs, member, rfl⟩

/-- No index is beyond the entries. -/
theorem index?_lt_length_entries
    {inputs : List Value} {index : Nat}
    (found : LookupTable.index? 0 (model.samples cutoff) inputs = some index) :
    index < (model.table cutoff).entries.length := by
  have bounds := (LookupTable.index?_bounds found).2
  rw [samples_values, Nat.zero_add, Nat.one_mul] at bounds
  rw [table_entries, List.length_map]
  exact bounds

private theorem get?_table (inputs : List Value) :
    (model.table cutoff).get? inputs =
      (LookupTable.index? 0 (model.samples cutoff) inputs).bind fun index =>
        (model.table cutoff).entries[index]?.map TableEntry.cell :=
  rfl

theorem lookup?_table (pairs : List (String × Value)) :
    (model.table cutoff).lookup? pairs =
      ((model.samples cutoff).mapM fun samples => pairs.lookup samples.parameter).bind
        (model.table cutoff).get? :=
  rfl

/-- Counting places gives the cell of the combination. -/
theorem get?_table_eq_some_iff (inputs : List Value) (cell : Cell) :
    (model.table cutoff).get? inputs = some cell ↔
      ⟨inputs, cell⟩ ∈ (model.table cutoff).entries := by
  have counted : ∀ index, LookupTable.index? 0 (model.samples cutoff) inputs = some index →
      (model.table cutoff).get? inputs = some (model.outcome (model.envOf inputs)) := by
    intro index isIndex
    obtain ⟨offset, isOffset, atOffset⟩ := LookupTable.exists_offset_of_index? isIndex
    rw [Nat.zero_mul, Nat.zero_add] at isOffset
    rw [samples_values, ← isOffset] at atOffset
    rw [get?_table, isIndex, Option.bind_some, table_entries, List.getElem?_map, atOffset]
    rfl
  rw [mem_table_entries_iff, mem_combinations_iff, ← samples_values,
    ← LookupTable.index?_isSome_iff 0]
  cases found : LookupTable.index? 0 (model.samples cutoff) inputs with
  | none =>
      have notFound : (model.table cutoff).get? inputs = none := by
        rw [get?_table, found, Option.bind_none]
      simp [notFound]
  | some index =>
      rw [counted index found]
      simp [eq_comm]

/-- Inputs given by name are found like those in the order of the parameters. -/
theorem lookup?_table_eq_get?
    {pairs : List (String × Value)} (distinct : (pairs.map Prod.fst).Nodup) {inputs : List Value}
    (given : List.Forall₂ (fun parameter input => (parameter.name, input) ∈ pairs)
      model.parameters inputs) :
    (model.table cutoff).lookup? pairs = (model.table cutoff).get? inputs := by
  have arranged : (model.samples cutoff).mapM (fun samples => pairs.lookup samples.parameter) =
      some inputs := by
    rw [mapM_eq_some_iff, samples, List.forall₂_map_left_iff]
    apply given.imp
    intro parameter input member
    exact TextMap.lookup_of_mem distinct member
  rw [lookup?_table, arranged, Option.bind_some]

private theorem lookup?_table_eq_none
    {pairs : List (String × Value)} {parameter : Parameter}
    (isParameter : parameter ∈ model.parameters)
    (missing : parameter.name ∉ pairs.map Prod.fst) :
    (model.table cutoff).lookup? pairs = none := by
  have incomplete : (model.samples cutoff).mapM (fun samples => pairs.lookup samples.parameter) =
      none := by
    rw [Option.eq_none_iff_forall_ne_some]
    intro inputs arranged
    rw [mapM_eq_some_iff, samples, List.forall₂_map_left_iff] at arranged
    obtain ⟨place, inBounds, atPlace⟩ := List.mem_iff_getElem.mp isParameter
    have found := arranged.get inBounds (arranged.length_eq ▸ inBounds)
    simp only [List.get_eq_getElem, atPlace] at found
    exact missing (List.mem_map.mpr ⟨_, TextMap.mem_of_lookup found, rfl⟩)
  rw [lookup?_table, incomplete, Option.bind_none]

/-- The table of a model is its evaluation on all combinations of sampled values, in lexicographic
order, and looking up inputs finds the cell of their entry: by position exactly if each of them was
sampled for its parameter, and by name as by position. -/
theorem table_exact :
    (∀ inputs, inputs ∈ (model.table cutoff).entries.map TableEntry.inputs ↔
      List.Forall₂ (fun input values => input ∈ values) inputs (model.sampleLists cutoff)) ∧
    ((model.table cutoff).entries.map TableEntry.inputs).Nodup ∧
    ((model.table cutoff).entries.map TableEntry.inputs).Pairwise
      (Earlier (model.sampleLists cutoff)) ∧
    ((model.table cutoff).entries = [] ↔ [] ∈ model.sampleLists cutoff) ∧
    (model.parameters = [] → (model.table cutoff).entries.map TableEntry.inputs = [[]]) ∧
    (∀ entry ∈ (model.table cutoff).entries,
      entry.cell.Reports model.rules (firstMatch (model.envOf entry.inputs) model.rules)) ∧
    (∀ inputs,
      ((∃ cell, (model.table cutoff).get? inputs = some cell) ↔
        List.Forall₂ (fun input values => input ∈ values) inputs (model.sampleLists cutoff)) ∧
      ∀ cell, (model.table cutoff).get? inputs = some cell ↔
        ⟨inputs, cell⟩ ∈ (model.table cutoff).entries) ∧
    (∀ pairs : List (String × Value), (pairs.map Prod.fst).Nodup →
      (∀ inputs, List.Forall₂ (fun parameter input => (parameter.name, input) ∈ pairs)
          model.parameters inputs →
        (model.table cutoff).lookup? pairs = (model.table cutoff).get? inputs) ∧
      ∀ parameter ∈ model.parameters, parameter.name ∉ pairs.map Prod.fst →
        (model.table cutoff).lookup? pairs = none) := by
  rw [table_inputs]
  refine ⟨fun inputs => mem_combinations_iff,
    combinations_nodup (model.sampleLists_nodup cutoff), combinations_ordered _, ?_, ?_, ?_, ?_, ?_⟩
  · rw [table_entries, List.map_eq_nil_iff, combinations_eq_nil_iff]
  · intro noParameters
    rw [sampleLists, noParameters]
    rfl
  · rintro ⟨inputs, cell⟩ member
    rw [((mem_table_entries_iff model cutoff inputs cell).mp member).2]
    exact model.outcome_reports _
  · intro inputs
    refine ⟨?_, model.get?_table_eq_some_iff cutoff inputs⟩
    simp only [get?_table_eq_some_iff, mem_table_entries_iff, mem_combinations_iff]
    simp
  · intro pairs distinct
    exact ⟨fun inputs given => model.lookup?_table_eq_get? cutoff distinct given,
      fun parameter isParameter missing => model.lookup?_table_eq_none cutoff isParameter missing⟩

def parking : Model where
  functionName := "parking"
  parameters := [⟨"hours", .range 0 2⟩, ⟨"resident", .boolean⟩]
  rules :=
    [⟨.var "resident", .value (.string "free")⟩,
      ⟨.comparison "hours" .gt (.int 1), .value (.string "long")⟩]

/-- Inputs are found in any order and among others, unless one is missing. -/
theorem table_exact_parking :
    (parking.table 100).lookup?
        [("resident", .bool false), ("day", .string "monday"), ("hours", .int 2)] =
      (parking.table 100).get? [.int 2, .bool false] ∧
    (parking.table 100).get? [.int 2, .bool false] = some (.hit 1 (.value (.string "long"))) ∧
    (parking.table 100).lookup? [("resident", .bool false)] = none := by
  obtain ⟨_, _, _, _, _, _, gets, looksUp⟩ := parking.table_exact 100
  refine ⟨?_, ?_, ?_⟩
  · exact (looksUp _ (by decide)).1 _ (.cons (by decide) (.cons (by decide) .nil))
  · exact ((gets _).2 _).mpr (by decide)
  · exact (looksUp _ (by decide)).2 ⟨"hours", .range 0 2⟩ (by decide) (by decide)

end Model

end Rulebook
