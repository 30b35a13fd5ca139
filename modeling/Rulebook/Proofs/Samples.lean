import Rulebook.Model.Domain
import Rulebook.Proofs.Basic
import Rulebook.Proofs.Distinct

/-!
# Sampled values

Which values represent a domain: no value twice, and for a range of integers its ends and the
neighbourhood of every threshold within it, or all of it.
-/

namespace Rulebook

theorem compareInt_eq_iff (left right : Int64) : compareInt left right = .eq ↔ left = right := by
  rw [compareInt, compare_eq_iff_eq, Int64.toInt_inj]

theorem compareInt_swap (left right : Int64) :
    compareInt left right = (compareInt right left).swap := by
  rw [compareInt, compareInt, ← Std.OrientedCmp.eq_swap]

theorem compareInt_eq_lt_iff (left right : Int64) :
    compareInt left right = .lt ↔ left.toInt < right.toInt :=
  compare_lt_iff_lt

private theorem compareInt_lt_trans {first second third : Int64}
    (before : compareInt first second = .lt) (after : compareInt second third = .lt) :
    compareInt first third = .lt := by
  rw [compareInt_eq_lt_iff] at before after ⊢
  exact lt_trans before after

private theorem compareInt_linear : LinearComparison compareInt :=
  .of_strict compareInt_eq_iff compareInt_swap compareInt_lt_trans

private theorem sortedIntegers_ascending (integers : List Int64) :
    (SortedSet.ofList compareInt integers).Pairwise fun first second =>
      first.toInt < second.toInt := by
  apply (SortedSet.ofList_ascending compareInt_linear integers).imp
  intro first second
  exact (compareInt_eq_lt_iff first second).mp

theorem mem_iff_toInt_mem {tested : Int64} {integers : List Int64} :
    tested ∈ integers ↔ tested.toInt ∈ integers.map Int64.toInt :=
  (List.mem_map_of_injective fun _ _ => Int64.toInt_inj.mp).symm

/-- Counting up from `min` reaches `max` without leaving the words. -/
theorem map_toInt_integersBetween (min max : Int64) :
    (integersBetween min max).map Int64.toInt =
      (List.range (max.toInt - min.toInt + 1).toNat).map fun (step : Nat) => min.toInt + step := by
  rw [integersBetween, List.map_map]
  apply List.map_congr_left
  intro step member
  have bounded := List.mem_range.mp member
  have lower : min.toInt ≤ min.toInt + step := by omega
  have upper : min.toInt + step ≤ max.toInt := by omega
  exact toInt_ofInt_between lower upper

/-- The integers between two words are those between them. -/
@[simp]
theorem mem_integersBetween_iff (min max tested : Int64) :
    tested ∈ integersBetween min max ↔
      min.toInt ≤ tested.toInt ∧ tested.toInt ≤ max.toInt := by
  rw [mem_iff_toInt_mem, map_toInt_integersBetween]
  simp only [List.mem_map, List.mem_range]
  constructor
  · rintro ⟨step, bounded, isTested⟩
    omega
  · rintro ⟨lower, upper⟩
    exact ⟨(tested.toInt - min.toInt).toNat, by omega, by omega⟩

theorem integersBetween_ascending (min max : Int64) :
    (integersBetween min max).Pairwise fun first second => first.toInt < second.toInt := by
  rw [← List.pairwise_map, map_toInt_integersBetween, List.pairwise_map]
  apply List.pairwise_lt_range.imp
  intro first second before
  omega

private theorem Condition.mem_comparisons_iff
    {condition : Condition} {name : String} {op : Comparator} {constant : Value} :
    (name, op, constant) ∈ condition.comparisons ↔
      .comparison name op constant ∈ condition.nodes := by
  rw [comparisons, List.mem_filterMap]
  constructor
  · rintro ⟨node, isNode, compares⟩
    cases node <;> cases compares
    exact isNode
  · intro isNode
    exact ⟨_, isNode, rfl⟩

namespace Thresholds

theorem mem_integerComparisons_iff
    {name : String} {conditions : List Condition} {op : Comparator} {constant : Int64} :
    (op, constant) ∈ integerComparisons name conditions ↔
      ∃ condition ∈ conditions, .comparison name op (.int constant) ∈ condition.nodes := by
  simp only [integerComparisons, List.mem_filterMap, List.mem_flatMap]
  constructor
  · rintro ⟨⟨other, otherOp, value⟩, ⟨condition, isCondition, isComparison⟩, selected⟩
    cases value with
    | int number =>
        by_cases same : other = name
        · simp only [same, if_true] at selected isComparison
          cases selected
          exact ⟨condition, isCondition, Condition.mem_comparisons_iff.mp isComparison⟩
        · simp [same] at selected
    | _ => cases selected
  · rintro ⟨condition, isCondition, isNode⟩
    exact ⟨(name, op, .int constant),
      ⟨condition, isCondition, Condition.mem_comparisons_iff.mpr isNode⟩, by simp⟩

/-- The thresholds of a name are the integers that some condition compares it with. -/
theorem mem_all_collect_iff
    {name : String} {conditions : List Condition} {threshold : Int64} :
    threshold ∈ (collect name conditions).all ↔
      ∃ condition ∈ conditions, ∃ op, .comparison name op (.int threshold) ∈ condition.nodes := by
  have collected :
      threshold ∈ (collect name conditions).all ↔
        ∃ op, (op, threshold) ∈ integerComparisons name conditions := by
    rw [all, SortedSet.mem_ofList_iff compareInt_eq_iff]
    simp only [collect, List.mem_append, List.mem_map, List.mem_filter]
    constructor
    · rintro ((⟨⟨op, _⟩, ⟨found, _⟩, rfl⟩ | ⟨⟨op, _⟩, ⟨found, _⟩, rfl⟩) |
        ⟨⟨op, _⟩, ⟨found, _⟩, rfl⟩)
      all_goals exact ⟨op, found⟩
    · rintro ⟨op, found⟩
      cases op with
      | gt | ge => exact .inl (.inl ⟨_, ⟨found, rfl⟩, rfl⟩)
      | lt | le => exact .inl (.inr ⟨_, ⟨found, rfl⟩, rfl⟩)
      | eq | ne => exact .inr ⟨_, ⟨found, rfl⟩, rfl⟩
  simp only [collected, mem_integerComparisons_iff]
  constructor
  · rintro ⟨op, condition, isCondition, isNode⟩
    exact ⟨condition, isCondition, op, isNode⟩
  · rintro ⟨condition, isCondition, op, isNode⟩
    exact ⟨op, condition, isCondition, isNode⟩

end Thresholds

/-- The neighbours of a threshold stop at the ends of the words. -/
theorem map_toInt_aroundThreshold (threshold : Int64) :
    (aroundThreshold threshold).map Int64.toInt =
      [max Text.int64Min (threshold.toInt - 1), threshold.toInt,
        min (threshold.toInt + 1) Text.int64Max] := by
  have lower := threshold.le_toInt
  have upper := threshold.toInt_lt
  have neighbour : ∀ offset : Int, -1 ≤ offset → offset ≤ 1 →
      ((Text.int64? (threshold.toInt + offset)).getD threshold).toInt =
        max Text.int64Min (min (threshold.toInt + offset) Text.int64Max) := by
    intro offset _ _
    cases found : Text.int64? (threshold.toInt + offset) with
    | none =>
        simp only [Text.int64?, ite_eq_right_iff, reduceCtorEq, imp_false] at found
        simp only [Option.getD_none, Text.int64Min, Text.int64Max] at found ⊢
        omega
    | some word =>
        have wordLower := word.le_toInt
        have wordUpper := word.toInt_lt
        rw [Option.getD_some, ← Text.int64?_eq_some_iff.mp found, Text.int64Min, Text.int64Max]
        omega
  simp only [aroundThreshold, List.map_cons, List.map_nil]
  rw [neighbour (-1) (by omega) (by omega), neighbour 1 (by omega) (by omega)]
  simp only [Text.int64Min, Text.int64Max, List.cons.injEq, and_true, true_and]
  omega

@[simp]
theorem mem_aroundThreshold_iff {threshold tested : Int64} :
    tested ∈ aroundThreshold threshold ↔
      threshold.toInt - 1 ≤ tested.toInt ∧ tested.toInt ≤ threshold.toInt + 1 := by
  have lower := tested.le_toInt
  have upper := tested.toInt_lt
  have thresholdLower := threshold.le_toInt
  have thresholdUpper := threshold.toInt_lt
  rw [mem_iff_toInt_mem, map_toInt_aroundThreshold]
  simp only [List.mem_cons, List.not_mem_nil, or_false, Text.int64Min, Text.int64Max]
  omega

/-- A range that spans at most `cutoff` steps is sampled whole, a wider one at its ends and around
the thresholds. -/
theorem mem_sampleIntegers_iff
    {min max : Int64} {thresholds : Thresholds} {cutoff : Nat} {tested : Int64} :
    tested ∈ sampleIntegers min max thresholds cutoff ↔
      (min.toInt ≤ tested.toInt ∧ tested.toInt ≤ max.toInt) ∧
        (max.toInt - min.toInt ≤ cutoff ∨ tested = min ∨ tested = max ∨
          ∃ threshold ∈ thresholds.all,
            threshold.toInt - 1 ≤ tested.toInt ∧ tested.toInt ≤ threshold.toInt + 1) := by
  rw [sampleIntegers]
  by_cases narrow : max.toInt - min.toInt ≤ cutoff
  · rw [if_pos narrow, mem_integersBetween_iff]
    simp [narrow]
  · rw [if_neg narrow, SortedSet.mem_ofList_iff compareInt_eq_iff]
    simp only [List.mem_cons, List.mem_filter, List.mem_flatMap, mem_aroundThreshold_iff,
      Bool.and_eq_true, decide_eq_true_eq, narrow, false_or]
    have ordered : min.toInt < max.toInt := by omega
    constructor
    · rintro (rfl | rfl | ⟨near, inRange⟩)
      · exact ⟨by omega, .inl rfl⟩
      · exact ⟨by omega, .inr (.inl rfl)⟩
      · exact ⟨inRange, .inr (.inr near)⟩
    · rintro ⟨inRange, rfl | rfl | near⟩
      · exact .inl rfl
      · exact .inr (.inl rfl)
      · exact .inr (.inr ⟨near, inRange⟩)

theorem sampleIntegers_ascending
    (min max : Int64) (thresholds : Thresholds) (cutoff : Nat) :
    (sampleIntegers min max thresholds cutoff).Pairwise fun first second =>
      first.toInt < second.toInt := by
  rw [sampleIntegers]
  split
  · exact integersBetween_ascending min max
  · exact sortedIntegers_ascending _

/-- No value represents a domain twice. -/
theorem Domain.sample_nodup
    (name : String) (domain : Domain) (conditions : List Condition) (cutoff : Nat) :
    (domain.sample name conditions cutoff).Nodup := by
  cases domain with
  | boolean => simp [sample]
  | untyped => simp [sample]
  | range min max =>
      rw [sample, List.nodup_iff_pairwise_ne, List.pairwise_map]
      apply (sampleIntegers_ascending min max _ cutoff).imp
      intro first second before same
      rw [Value.int.inj same] at before
      exact absurd before (lt_irrefl _)

end Rulebook
