import Rulebook.Proofs.Exhaustive
import Rulebook.Proofs.Samples

/-!
# Integer domains

The range of an integer parameter follows from the constants that the conditions compare it with,
and the samples of the range from the same constants. The ends of a range are in order, and it
contains every constant of an equality. The least lower and the greatest upper threshold are in it
as well, with one exception: where all upper thresholds are below all lower ones and there are
equality constants besides, a threshold is only in the range if an equality constant reaches it.
-/

namespace Rulebook

/-- The integer lies between the two ends, which are included. -/
def Between (min max tested : Int64) : Prop :=
  min.toInt ≤ tested.toInt ∧ tested.toInt ≤ max.toInt

instance (min max tested : Int64) : Decidable (Between min max tested) :=
  inferInstanceAs (Decidable (_ ∧ _))

namespace Thresholds

private theorem smaller_le_iff (left right : Int64) (bound : Int) :
    (smaller left right).toInt ≤ bound ↔ left.toInt ≤ bound ∨ right.toInt ≤ bound := by
  rw [smaller]
  split
  · omega
  · omega

theorem le_larger_iff (left right : Int64) (bound : Int) :
    bound ≤ (larger left right).toInt ↔ bound ≤ left.toInt ∨ bound ≤ right.toInt := by
  rw [larger]
  split
  · omega
  · omega

/-- What holds of a choice between two elements exactly if it holds of one of them, holds of the
choice among many exactly if it holds of one of these. -/
theorem foldl_choice_iff
    {α : Type} {choose : α → α → α} (holds : α → Prop)
    (isChoice : ∀ left right, holds (choose left right) ↔ holds left ∨ holds right)
    (start : α) (elements : List α) :
    holds (elements.foldl choose start) ↔ ∃ element ∈ start :: elements, holds element := by
  induction elements generalizing start with
  | nil => simp
  | cons first rest inductionHypothesis =>
      rw [List.foldl_cons, inductionHypothesis, List.exists_mem_cons_iff, isChoice,
        List.exists_mem_cons_iff, List.exists_mem_cons_iff, or_assoc]

theorem foldl_smaller_le_iff (start : Int64) (constants : List Int64) (bound : Int) :
    (constants.foldl smaller start).toInt ≤ bound ↔
      ∃ constant ∈ start :: constants, constant.toInt ≤ bound :=
  foldl_choice_iff (fun constant => constant.toInt ≤ bound)
    (fun left right => smaller_le_iff left right bound) start constants

theorem le_foldl_larger_iff (start : Int64) (constants : List Int64) (bound : Int) :
    bound ≤ (constants.foldl larger start).toInt ↔
      ∃ constant ∈ start :: constants, bound ≤ constant.toInt :=
  foldl_choice_iff (fun constant => bound ≤ constant.toInt)
    (fun left right => le_larger_iff left right bound) start constants

/-! ## The range -/

variable (thresholds : Thresholds)

private theorem outerRange_min_le_iff (hasLower : thresholds.lower ≠ []) (bound : Int) :
    thresholds.outerRange.1.toInt ≤ bound ↔
      ∃ constant ∈ thresholds.lower, constant.toInt ≤ bound := by
  rw [outerRange]
  cases isLower : thresholds.lower with
  | nil => exact absurd isLower hasLower
  | cons first rest =>
      rw [← foldl_smaller_le_iff]
      cases thresholds.upper with
      | nil => rfl
      | cons _ _ => rfl

private theorem le_outerRange_max_iff (hasUpper : thresholds.upper ≠ []) (bound : Int) :
    bound ≤ thresholds.outerRange.2.toInt ↔
      ∃ constant ∈ thresholds.upper, bound ≤ constant.toInt := by
  rw [outerRange]
  cases isUpper : thresholds.upper with
  | nil => exact absurd isUpper hasUpper
  | cons first rest =>
      rw [← le_foldl_larger_iff]
      cases thresholds.lower with
      | nil => rfl
      | cons _ _ => rfl

/-- A bound that is assumed gives way to one that is found. -/
theorem outerRange_ordered (oneSided : thresholds.lower = [] ∨ thresholds.upper = []) :
    thresholds.outerRange.1.toInt ≤ thresholds.outerRange.2.toInt := by
  rw [outerRange]
  cases isLower : thresholds.lower with
  | nil =>
      cases thresholds.upper with
      | nil => decide
      | cons first rest => exact (smaller_le_iff _ _ _).mpr (.inr (le_refl _))
  | cons first rest =>
      have noUpper : thresholds.upper = [] := by
        rw [isLower] at oneSided
        exact oneSided.resolve_left (List.cons_ne_nil _ _)
      rw [noUpper]
      exact (le_larger_iff _ _ _).mpr (.inr (le_refl _))

private theorem range_ordered : thresholds.range.1.toInt ≤ thresholds.range.2.toInt := by
  simp only [range, smaller, larger]
  split
  · assumption
  · omega

/-- The range begins at an equality constant or at the lower end of the outer range. Only where
there are no equality constants can the ends be exchanged. -/
theorem range_min_le_iff (bound : Int) :
    thresholds.range.1.toInt ≤ bound ↔
      thresholds.outerRange.1.toInt ≤ bound ∨
        (∃ constant ∈ thresholds.exact, constant.toInt ≤ bound) ∨
        thresholds.exact = [] ∧ thresholds.outerRange.2.toInt ≤ bound := by
  rw [range, smaller_le_iff, foldl_smaller_le_iff, List.exists_mem_cons_iff, or_assoc]
  cases thresholds.exact with
  | nil => simp
  | cons first rest =>
      have reached := (le_foldl_larger_iff thresholds.outerRange.2 (first :: rest) _).mpr
        ⟨first, List.mem_cons_of_mem _ List.mem_cons_self, le_refl _⟩
      have covered : ((first :: rest).foldl larger thresholds.outerRange.2).toInt ≤ bound →
          ∃ constant ∈ first :: rest, constant.toInt ≤ bound :=
        fun below => ⟨first, List.mem_cons_self, le_trans reached below⟩
      simp only [reduceCtorEq, false_and, or_false, or_iff_left_of_imp covered]

/-- The range ends at an equality constant or at the upper end of the outer range, unless the ends
are exchanged. -/
theorem le_range_max_iff (bound : Int) :
    bound ≤ thresholds.range.2.toInt ↔
      bound ≤ thresholds.outerRange.2.toInt ∨
        (∃ constant ∈ thresholds.exact, bound ≤ constant.toInt) ∨
        thresholds.exact = [] ∧ bound ≤ thresholds.outerRange.1.toInt := by
  rw [range, le_larger_iff, le_foldl_larger_iff, List.exists_mem_cons_iff, or_comm, or_assoc]
  cases thresholds.exact with
  | nil => simp
  | cons first rest =>
      have reached := (foldl_smaller_le_iff thresholds.outerRange.1 (first :: rest) _).mpr
        ⟨first, List.mem_cons_of_mem _ List.mem_cons_self, le_refl _⟩
      have covered : bound ≤ ((first :: rest).foldl smaller thresholds.outerRange.1).toInt →
          ∃ constant ∈ first :: rest, bound ≤ constant.toInt :=
        fun above => ⟨first, List.mem_cons_self, le_trans above reached⟩
      simp only [reduceCtorEq, false_and, or_false, or_iff_left_of_imp covered]

private theorem between_of_exact {constant : Int64} (member : constant ∈ thresholds.exact) :
    Between thresholds.range.1 thresholds.range.2 constant :=
  ⟨(thresholds.range_min_le_iff _).mpr (.inr (.inl ⟨constant, member, le_refl _⟩)),
    (thresholds.le_range_max_iff _).mpr (.inr (.inl ⟨constant, member, le_refl _⟩))⟩

/-- The least lower threshold is outside exactly if there are upper thresholds and equality
constants, and all of them are below it. -/
theorem not_between_lower_iff {least : Int64} (member : least ∈ thresholds.lower)
    (isLeast : ∀ constant ∈ thresholds.lower, least.toInt ≤ constant.toInt) :
    ¬ Between thresholds.range.1 thresholds.range.2 least ↔
      (∃ upper, upper ∈ thresholds.upper) ∧ (∃ exact, exact ∈ thresholds.exact) ∧
        (∀ upper ∈ thresholds.upper, upper.toInt < least.toInt) ∧
        ∀ exact ∈ thresholds.exact, exact.toInt < least.toInt := by
  have begins := thresholds.outerRange_min_le_iff (List.ne_nil_of_mem member)
  have notAfter : thresholds.outerRange.1.toInt ≤ least.toInt :=
    (begins _).mpr ⟨least, member, le_refl _⟩
  have notBefore : least.toInt ≤ thresholds.outerRange.1.toInt := by
    obtain ⟨constant, isConstant, below⟩ := (begins _).mp (le_refl _)
    exact le_trans (isLeast constant isConstant) below
  have covered : thresholds.range.1.toInt ≤ least.toInt :=
    (thresholds.range_min_le_iff _).mpr (.inl notAfter)
  simp only [Between, covered, true_and, le_range_max_iff, notBefore, and_true]
  by_cases noUpper : thresholds.upper = []
  · have reached := le_trans notBefore (thresholds.outerRange_ordered (.inr noUpper))
    simp [noUpper, reached]
  · have hasUpper := List.exists_mem_of_ne_nil _ noUpper
    rw [thresholds.le_outerRange_max_iff noUpper, List.eq_nil_iff_forall_not_mem]
    grind

/-- The greatest upper threshold is outside exactly if there are lower thresholds and equality
constants, and all of them are above it. -/
theorem not_between_upper_iff {greatest : Int64} (member : greatest ∈ thresholds.upper)
    (isGreatest : ∀ constant ∈ thresholds.upper, constant.toInt ≤ greatest.toInt) :
    ¬ Between thresholds.range.1 thresholds.range.2 greatest ↔
      (∃ lower, lower ∈ thresholds.lower) ∧ (∃ exact, exact ∈ thresholds.exact) ∧
        (∀ lower ∈ thresholds.lower, greatest.toInt < lower.toInt) ∧
        ∀ exact ∈ thresholds.exact, greatest.toInt < exact.toInt := by
  have ends := thresholds.le_outerRange_max_iff (List.ne_nil_of_mem member)
  have notBefore : greatest.toInt ≤ thresholds.outerRange.2.toInt :=
    (ends _).mpr ⟨greatest, member, le_refl _⟩
  have notAfter : thresholds.outerRange.2.toInt ≤ greatest.toInt := by
    obtain ⟨constant, isConstant, above⟩ := (ends _).mp (le_refl _)
    exact le_trans above (isGreatest constant isConstant)
  have covered : greatest.toInt ≤ thresholds.range.2.toInt :=
    (thresholds.le_range_max_iff _).mpr (.inl notBefore)
  simp only [Between, covered, and_true, range_min_le_iff, notAfter]
  by_cases noLower : thresholds.lower = []
  · have reached := le_trans (thresholds.outerRange_ordered (.inl noLower)) notAfter
    simp [noLower, reached]
  · have hasLower := List.exists_mem_of_ne_nil _ noLower
    rw [thresholds.outerRange_min_le_iff noLower, List.eq_nil_iff_forall_not_mem]
    grind

end Thresholds

/-- One of the conditions compares the name with the integer, by one of the operators. -/
def ComparedBy
    (conditions : List Condition) (name : String) (ops : List Comparator) (constant : Int64) :
    Prop :=
  ∃ condition ∈ conditions, ∃ op ∈ ops, .comparison name op (.int constant) ∈ condition.nodes

namespace Thresholds

variable {conditions : List Condition} {name : String} {constant : Int64}

private theorem comparedBy_iff {ops : List Comparator} :
    ComparedBy conditions name ops constant ↔
      constant ∈ ((integerComparisons name conditions).filter fun comparison =>
        ops.contains comparison.1).map (·.2) := by
  simp only [ComparedBy, List.mem_map, List.mem_filter, List.contains_iff_mem]
  constructor
  · rintro ⟨condition, isCondition, op, isOp, isNode⟩
    have found := mem_integerComparisons_iff.mpr ⟨condition, isCondition, isNode⟩
    exact ⟨(op, constant), ⟨found, isOp⟩, rfl⟩
  · rintro ⟨⟨op, _⟩, ⟨found, isOp⟩, rfl⟩
    obtain ⟨condition, isCondition, isNode⟩ := mem_integerComparisons_iff.mp found
    exact ⟨condition, isCondition, op, isOp, isNode⟩

theorem mem_lower_iff :
    constant ∈ (collect name conditions).lower ↔
      ComparedBy conditions name [.gt, .ge] constant :=
  comparedBy_iff.symm

theorem mem_upper_iff :
    constant ∈ (collect name conditions).upper ↔
      ComparedBy conditions name [.lt, .le] constant :=
  comparedBy_iff.symm

private theorem mem_exact_iff :
    constant ∈ (collect name conditions).exact ↔
      ComparedBy conditions name [.eq, .ne] constant :=
  comparedBy_iff.symm

private theorem mem_all_iff :
    constant ∈ (collect name conditions).all ↔
      ComparedBy conditions name Comparator.all constant := by
  rw [mem_all_collect_iff]
  have everyOp : ∀ op : Comparator, op ∈ Comparator.all := by
    intro op
    cases op <;> decide
  simp only [ComparedBy, everyOp, true_and]

end Thresholds

/-- The samples of a range: in order, its ends and the surroundings of the constants, or else all
of it, and nothing more. -/
structure Represents
    (min max : Int64) (compared : Int64 → Prop) (cutoff : Nat) (samples : List Int64) : Prop where
  ascending : samples.Pairwise fun first second => first.toInt < second.toInt
  within : ∀ sample ∈ samples, Between min max sample
  ends : min ∈ samples ∧ max ∈ samples
  near : ∀ constant, compared constant → ∀ tested, Between min max tested →
    constant.toInt - 1 ≤ tested.toInt → tested.toInt ≤ constant.toInt + 1 → tested ∈ samples
  whole : max.toInt - min.toInt ≤ cutoff → ∀ tested, Between min max tested → tested ∈ samples
  nothingElse : cutoff < max.toInt - min.toInt → ∀ sample ∈ samples,
    sample = min ∨ sample = max ∨ ∃ constant, compared constant ∧
      constant.toInt - 1 ≤ sample.toInt ∧ sample.toInt ≤ constant.toInt + 1

/-- No step of the sampling overflows: the width of the range fits 128 bits, counting up from the
lower end passes through words only, and the neighbours of a constant stop at the ends of the
words. -/
structure SampledInBounds (min max : Int64) (compared : Int64 → Prop) : Prop where
  width : (BitVec.ofInt 128 (max.toInt - min.toInt)).toInt = max.toInt - min.toInt
  steps : (integersBetween min max).map Int64.toInt =
    (List.range (max.toInt - min.toInt + 1).toNat).map fun (step : Nat) => min.toInt + step
  neighbours : ∀ constant, compared constant →
    (aroundThreshold constant).map Int64.toInt =
      [Max.max Text.int64Min (constant.toInt - 1), constant.toInt,
        Min.min (constant.toInt + 1) Text.int64Max]

/-- Words are far narrower than 128 bits, and the neighbours of a word saturate. -/
theorem sampledInBounds (min max : Int64) (compared : Int64 → Prop) :
    SampledInBounds min max compared where
  width := by
    have minLower := min.le_toInt
    have minUpper := min.toInt_lt
    have maxLower := max.le_toInt
    have maxUpper := max.toInt_lt
    exact BitVec.toInt_ofInt_eq_self (by decide) (by omega) (by omega)
  steps := map_toInt_integersBetween min max
  neighbours := fun constant _ => map_toInt_aroundThreshold constant

/-- The samples represent the range whatever the thresholds are. -/
theorem sampleIntegers_represents
    {min max : Int64} (ordered : min.toInt ≤ max.toInt) {thresholds : Thresholds}
    {compared : Int64 → Prop} (isThreshold : ∀ {constant}, constant ∈ thresholds.all ↔
      compared constant) (cutoff : Nat) :
    Represents min max compared cutoff (sampleIntegers min max thresholds cutoff) where
  ascending := sampleIntegers_ascending min max thresholds cutoff
  within := fun _ member => (mem_sampleIntegers_iff.mp member).1
  ends :=
    ⟨mem_sampleIntegers_iff.mpr ⟨⟨le_refl _, ordered⟩, .inr (.inl rfl)⟩,
      mem_sampleIntegers_iff.mpr ⟨⟨ordered, le_refl _⟩, .inr (.inr (.inl rfl))⟩⟩
  near := by
    intro constant isCompared tested between below above
    exact mem_sampleIntegers_iff.mpr
      ⟨between, .inr (.inr (.inr ⟨constant, isThreshold.mpr isCompared, below, above⟩))⟩
  whole := fun narrow _ between => mem_sampleIntegers_iff.mpr ⟨between, .inl narrow⟩
  nothingElse := by
    intro wide sample member
    have chosen := (mem_sampleIntegers_iff.mp member).2.resolve_left (Int.not_le.mpr wide)
    simpa only [isThreshold] using chosen

/-! ## Built models -/

private theorem Domain.eq_integer_of_ofUsage
    {name : String} {conditions : List Condition} {min max : Int64}
    (inferred : ofUsage name conditions = .range min max) :
    integer name conditions = .range min max := by
  rw [ofUsage] at inferred
  split at inferred
  · exact inferred
  · split at inferred
    · cases inferred
    · cases inferred

private theorem Domain.infer_eq_range
    {name : String} {typeHint : Option String} {default : Option Value}
    {conditions : List Condition} {min max : Int64}
    (inferred : infer name typeHint default conditions = .range min max) :
    (Thresholds.collect name conditions).range = (min, max) := by
  have isInteger : integer name conditions = .range min max := by
    unfold infer at inferred
    split at inferred
    · cases inferred
    · split at inferred
      · exact inferred
      · split at inferred
        · cases inferred
        · exact inferred
        · split at inferred
          · cases inferred
          · exact eq_integer_of_ofUsage inferred
  rw [integer, Domain.range.injEq] at isInteger
  exact Prod.ext isInteger.1 isInteger.2

private theorem parameters_of_ofFunction
    {source : String} {strict : Bool} {function : Function} {model : Model}
    (built : Model.ofFunction source strict function = .ok model) :
    model.parameters = function.signature.map (Param.parameter model.conditions) := by
  rw [Model.ofFunction] at built
  split at built
  · cases built
  · cases built
    rfl

/-- The range of a parameter is that of the thresholds in the conditions of the model. -/
theorem Model.range_of_ofSource
    {source : String} {target : Option String} {strict : Bool} {model : Model}
    (built : ofSource source target strict = .ok model)
    {parameter : Parameter} (isParameter : parameter ∈ model.parameters)
    {min max : Int64} (isRange : parameter.domain = .range min max) :
    (Thresholds.collect parameter.name model.conditions).range = (min, max) := by
  obtain ⟨function, fromFunction⟩ := exists_function_of_ofSource built
  rw [parameters_of_ofFunction fromFunction] at isParameter
  obtain ⟨param, _, rfl⟩ := List.mem_map.mp isParameter
  exact Domain.infer_eq_range isRange

/-- The ends of the range of a parameter of a built model are in order, every constant of an
equality is within, and the samples represent it, computed without an overflow. The least lower
threshold is outside only if there are upper thresholds and equality constants, and all of them are
below it; the greatest upper threshold only in the mirrored case. -/
theorem Model.integer_domain_exact
    {source : String} {target : Option String} {strict : Bool} {model : Model}
    (built : ofSource source target strict = .ok model)
    {parameter : Parameter} (isParameter : parameter ∈ model.parameters)
    {min max : Int64} (isRange : parameter.domain = .range min max) (cutoff : Nat) :
    let compared := ComparedBy model.conditions parameter.name
    min.toInt ≤ max.toInt ∧
    (∀ constant, compared [.eq, .ne] constant → Between min max constant) ∧
    (∀ least, compared [.gt, .ge] least →
      (∀ other, compared [.gt, .ge] other → least.toInt ≤ other.toInt) →
      (¬ Between min max least ↔
        (∃ upper, compared [.lt, .le] upper) ∧ (∃ exact, compared [.eq, .ne] exact) ∧
          (∀ upper, compared [.lt, .le] upper → upper.toInt < least.toInt) ∧
          ∀ exact, compared [.eq, .ne] exact → exact.toInt < least.toInt)) ∧
    (∀ greatest, compared [.lt, .le] greatest →
      (∀ other, compared [.lt, .le] other → other.toInt ≤ greatest.toInt) →
      (¬ Between min max greatest ↔
        (∃ lower, compared [.gt, .ge] lower) ∧ (∃ exact, compared [.eq, .ne] exact) ∧
          (∀ lower, compared [.gt, .ge] lower → greatest.toInt < lower.toInt) ∧
          ∀ exact, compared [.eq, .ne] exact → greatest.toInt < exact.toInt)) ∧
    SampledInBounds min max (compared Comparator.all) ∧
    ∃ samples, parameter.domain.sample parameter.name model.conditions cutoff =
        samples.map Value.int ∧
      Represents min max (compared Comparator.all) cutoff samples ∧
      ∀ constant, compared Comparator.all constant →
        (constant ∈ samples ↔ Between min max constant) := by
  intro compared
  have isOuter := range_of_ofSource built isParameter isRange
  generalize collected : Thresholds.collect parameter.name model.conditions = thresholds at isOuter
  have isMin : thresholds.range.1 = min := by rw [isOuter]
  have isMax : thresholds.range.2 = max := by rw [isOuter]
  have isLower : ∀ constant, compared [.gt, .ge] constant ↔ constant ∈ thresholds.lower := by
    intro constant
    rw [← collected, Thresholds.mem_lower_iff]
  have isUpper : ∀ constant, compared [.lt, .le] constant ↔ constant ∈ thresholds.upper := by
    intro constant
    rw [← collected, Thresholds.mem_upper_iff]
  have isExact : ∀ constant, compared [.eq, .ne] constant ↔ constant ∈ thresholds.exact := by
    intro constant
    rw [← collected, Thresholds.mem_exact_iff]
  have ordered : min.toInt ≤ max.toInt := by
    rw [← isMin, ← isMax]
    exact thresholds.range_ordered
  have represents : Represents min max (compared Comparator.all) cutoff
      (sampleIntegers min max thresholds cutoff) := by
    rw [← collected]
    exact sampleIntegers_represents ordered Thresholds.mem_all_iff cutoff
  refine ⟨ordered, ?_, ?_, ?_, sampledInBounds min max _,
    sampleIntegers min max thresholds cutoff, ?_, represents, ?_⟩
  · intro constant isEquated
    rw [← isMin, ← isMax]
    exact thresholds.between_of_exact ((isExact constant).mp isEquated)
  · intro least isCompared isLeast
    simp only [isLower, isUpper, isExact] at isCompared isLeast ⊢
    rw [← isMin, ← isMax]
    exact thresholds.not_between_lower_iff isCompared isLeast
  · intro greatest isCompared isGreatest
    simp only [isLower, isUpper, isExact] at isCompared isGreatest ⊢
    rw [← isMin, ← isMax]
    exact thresholds.not_between_upper_iff isCompared isGreatest
  · rw [isRange, Domain.sample, collected]
  · intro constant isCompared
    constructor
    · exact represents.within constant
    · intro between
      exact represents.near constant isCompared constant between (by omega) (by omega)

/-- The thresholds of `level` are inverted and as far apart as written integers can be. -/
def gaugeSource : String :=
  "def gauge(level, mode):\n" ++
  "    if level >= 9223372036854775807 and mode != 7:\n" ++
  "        return 'spill'\n" ++
  "    if level < -9223372036854775807 or mode > 3:\n" ++
  "        return 'fill'\n" ++
  "    return 'keep'\n"

def gaugeModel : Model where
  functionName := "gauge"
  parameters :=
    [⟨"level", .range (-9223372036854775807) 9223372036854775807⟩, ⟨"mode", .range 3 100⟩]
  rules :=
    [⟨.junction .and [.comparison "level" .ge (.int 9223372036854775807),
        .comparison "mode" .ne (.int 7)], .value (.string "spill")⟩,
      ⟨.junction .or [.comparison "level" .lt (.int (-9223372036854775807)),
        .comparison "mode" .gt (.int 3)], .value (.string "fill")⟩,
      ⟨.literal true, .value (.string "keep")⟩]

theorem Model.integer_domain_exact_gauge :
    ofSource gaugeSource none false = .ok gaugeModel ∧
    Between 3 100 7 ∧
    ∃ samples,
      (Domain.range (-9223372036854775807) 9223372036854775807).sample "level"
        gaugeModel.conditions 100 = samples.map Value.int ∧
      Represents (-9223372036854775807) 9223372036854775807
        (ComparedBy gaugeModel.conditions "level" Comparator.all) 100 samples := by
  have built : ofSource gaugeSource none false = .ok gaugeModel :=
    toOption_eq_some_iff.mp (by decide +kernel)
  have seven : ComparedBy gaugeModel.conditions "mode" [.eq, .ne] 7 := by
    refine ⟨_, List.mem_cons_self, .ne, by decide, by decide⟩
  have isLevel : ⟨"level", .range (-9223372036854775807) 9223372036854775807⟩ ∈
      gaugeModel.parameters := by decide
  have isMode : ⟨"mode", .range 3 100⟩ ∈ gaugeModel.parameters := by decide
  obtain ⟨_, _, _, _, _, samples, sampled, represents, _⟩ :=
    integer_domain_exact built isLevel rfl 100
  obtain ⟨_, equated, _⟩ := integer_domain_exact built isMode rfl 100
  exact ⟨built, equated 7 seven, samples, sampled, represents⟩

/-- The thresholds are inverted, and the equality constant is between them. -/
def kilnSource : String :=
  "def kiln(heat):\n" ++
  "    if heat > 80:\n" ++
  "        return 'vent'\n" ++
  "    if heat < 20:\n" ++
  "        return 'fire'\n" ++
  "    if heat == 50:\n" ++
  "        return 'hold'\n" ++
  "    return 'wait'\n"

def kilnModel : Model where
  functionName := "kiln"
  parameters := [⟨"heat", .range 50 50⟩]
  rules :=
    [⟨.comparison "heat" .gt (.int 80), .value (.string "vent")⟩,
      ⟨.comparison "heat" .lt (.int 20), .value (.string "fire")⟩,
      ⟨.comparison "heat" .eq (.int 50), .value (.string "hold")⟩,
      ⟨.literal true, .value (.string "wait")⟩]

/-- The least lower and the greatest upper threshold are both outside of the range. -/
theorem Model.kiln_range_narrowed :
    ofSource kilnSource none false = .ok kilnModel ∧
    (∀ constant, ComparedBy kilnModel.conditions "heat" [.gt, .ge] constant ↔ constant = 80) ∧
    (∀ constant, ComparedBy kilnModel.conditions "heat" [.lt, .le] constant ↔ constant = 20) ∧
    ¬ Between 50 50 80 ∧ ¬ Between 50 50 20 := by
  have built : ofSource kilnSource none false = .ok kilnModel :=
    toOption_eq_some_iff.mp (by decide +kernel)
  have lower : (Thresholds.collect "heat" kilnModel.conditions).lower = [80] := by decide
  have upper : (Thresholds.collect "heat" kilnModel.conditions).upper = [20] := by decide
  refine ⟨built, ?_, ?_, by decide, by decide⟩
  · intro constant
    rw [← Thresholds.mem_lower_iff, lower, List.mem_singleton]
  · intro constant
    rw [← Thresholds.mem_upper_iff, upper, List.mem_singleton]

end Rulebook
