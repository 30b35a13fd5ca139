import Rulebook.Pass
import Rulebook.Proofs.Flatness
import Rulebook.Proofs.LookupTable
import Rulebook.Proofs.Normalization
import Mathlib.Data.List.Sort

/-!
# Tables of simplified models

A model and its simplified form come to the same on every combination of inputs, up to the reason
why a cell is unknown. Their tables need not have the same combinations: the samples follow the
constants that the conditions compare with, and a part that a literal settles disappears together
with its constants. Where no literal and no empty junction stands inside a condition, normal forms
compare the same names with the same constants, though by other operators, and the tables agree in
their samples as well.
-/

namespace Rulebook

namespace Condition

/-- The condition compares the name with the constant, by some operator. -/
def Compares (name : String) (constant : Value) (condition : Condition) : Prop :=
  ∃ op, .comparison name op constant ∈ condition.nodes

section Compares

variable {name : String} {constant : Value}

@[simp]
theorem not_compares_literal (value : Bool) : ¬ (literal value).Compares name constant := by
  simp [Compares, nodes]

@[simp]
theorem compares_comparison_iff {other : String} {op : Comparator} {compared : Value} :
    (comparison other op compared).Compares name constant ↔ name = other ∧ constant = compared := by
  simp [Compares, nodes]

@[simp]
theorem compares_not_iff {operand : Condition} :
    (not operand).Compares name constant ↔ operand.Compares name constant := by
  simp [Compares, nodes]

@[simp]
theorem compares_junction_iff {kind : Junction} {parts : List Condition} :
    (junction kind parts).Compares name constant ↔
      ∃ part ∈ parts, part.Compares name constant := by
  simp only [Compares, nodes, List.mem_cons, reduceCtorEq, false_or, mem_nodesOf_iff]
  constructor
  · rintro ⟨op, part, member, isNode⟩
    exact ⟨part, member, op, isNode⟩
  · rintro ⟨part, member, op, isNode⟩
    exact ⟨op, part, member, isNode⟩

private theorem compares_negateIf (negated : Bool) (condition : Condition) :
    (if negated then not condition else condition).Compares name constant ↔
      condition.Compares name constant := by
  cases negated with
  | false => rfl
  | true => exact compares_not_iff

mutual

/-- Negation changes the operator of a comparison and nothing else. -/
@[simp]
theorem compares_pushNegation (negated : Bool) (condition : Condition) :
    (pushNegation negated condition).Compares name constant ↔
      condition.Compares name constant := by
  cases condition with
  | literal value =>
      exact iff_of_false (not_compares_literal _) (not_compares_literal _)
  | var other => exact compares_negateIf negated (var other)
  | comparison other op compared =>
      rw [pushNegation, compares_comparison_iff, compares_comparison_iff]
  | junction kind parts =>
      rw [pushNegation, compares_junction_iff, compares_junction_iff]
      exact compares_pushNegations negated parts
  | not operand =>
      rw [pushNegation, compares_not_iff]
      exact compares_pushNegation (!negated) operand
  | verbatim text => exact compares_negateIf negated (verbatim text)

theorem compares_pushNegations (negated : Bool) (parts : List Condition) :
    (∃ part ∈ pushNegations negated parts, part.Compares name constant) ↔
      ∃ part ∈ parts, part.Compares name constant := by
  cases parts with
  | nil => rfl
  | cons part rest =>
      rw [pushNegations, List.exists_mem_cons_iff, List.exists_mem_cons_iff,
        compares_pushNegation negated part, compares_pushNegations negated rest]

end

private theorem compares_splice (kind : Junction) (condition : Condition) :
    (∃ part ∈ splice kind condition, part.Compares name constant) ↔
      condition.Compares name constant := by
  cases condition with
  | junction inner parts =>
      rw [splice]
      split
      · exact compares_junction_iff.symm
      · simp
  | literal | var | comparison | not | verbatim => simp [splice]

private theorem compares_ofParts (kind : Junction) (parts : List Condition) :
    (ofParts kind parts).Compares name constant ↔ ∃ part ∈ parts, part.Compares name constant := by
  match parts with
  | [] => simp [ofParts]
  | [part] => simp [ofParts]
  | first :: second :: rest => exact compares_junction_iff

/-- Folding loses comparisons only where a literal settles the junction. -/
theorem compares_foldJunction {kind : Junction} {parts : List Condition}
    (unsettled : ∀ part ∈ parts, part ≠ literal kind.decisive) :
    (foldJunction kind parts).Compares name constant ↔
      ∃ part ∈ parts, part.Compares name constant := by
  have notSettled : ¬ parts.any (isLiteral kind.decisive) = true := by
    rw [List.any_eq_true]
    rintro ⟨part, member, isDecisive⟩
    exact unsettled part member (isLiteral_iff.mp isDecisive)
  rw [foldJunction, if_neg notSettled, compares_ofParts]
  simp only [SortedSet.mem_ofList_iff compare_eq_iff, List.mem_flatMap, List.mem_filter]
  constructor
  · rintro ⟨spliced, ⟨part, ⟨member, _⟩, isSpliced⟩, compares⟩
    exact ⟨part, member, (compares_splice kind part).mp ⟨spliced, isSpliced, compares⟩⟩
  · rintro ⟨part, member, compares⟩
    obtain ⟨spliced, isSpliced, inSpliced⟩ := (compares_splice kind part).mpr compares
    have kept : (!part.isLiteral kind.unit) = true := by
      rw [Bool.not_eq_true']
      by_contra neutral
      have isUnit : part = literal kind.unit := isLiteral_iff.mp (by simpa using neutral)
      rw [isUnit] at compares
      exact not_compares_literal _ compares
    exact ⟨spliced, ⟨part, ⟨member, kept⟩, isSpliced⟩, inSpliced⟩

end Compares

/-! ## Constants inside conditions -/

/-- A literal, or a junction without parts, which comes to one. -/
def isConstant : Condition → Bool
  | .literal _ => true
  | .junction _ parts => parts.isEmpty
  | _ => false

def ConstantFree (condition : Condition) : Prop :=
  ∀ node ∈ condition.nodes, node.isConstant = false

/-- No literal and no empty junction stands strictly inside the condition. -/
def ConstantFreeInside (condition : Condition) : Prop :=
  ∀ node ∈ condition.nodes.tail, node.isConstant = false

instance (condition : Condition) : Decidable condition.ConstantFreeInside :=
  inferInstanceAs (Decidable (∀ node ∈ condition.nodes.tail, node.isConstant = false))

private theorem constantFree_junction_iff {kind : Junction} {parts : List Condition} :
    (junction kind parts).ConstantFree ↔ parts ≠ [] ∧ ∀ part ∈ parts, part.ConstantFree := by
  rw [ConstantFree, forall_nodes_junction_iff]
  simp [isConstant, ConstantFree]

@[simp]
theorem constantFree_not_iff {operand : Condition} :
    (not operand).ConstantFree ↔ operand.ConstantFree := by
  simp [ConstantFree, nodes, isConstant]

theorem ConstantFree.ne_literal {condition : Condition} (free : condition.ConstantFree)
    (value : Bool) : condition ≠ literal value := by
  rintro rfl
  cases free (literal value) List.mem_cons_self

private theorem constantFree_negateIf (negated : Bool) {condition : Condition}
    (free : condition.ConstantFree) :
    (if negated then not condition else condition).ConstantFree := by
  cases negated with
  | false => exact free
  | true => exact constantFree_not_iff.mpr free

mutual

private theorem ConstantFree.pushNegation {condition : Condition} (free : condition.ConstantFree)
    (negated : Bool) : (pushNegation negated condition).ConstantFree := by
  cases condition with
  | literal value => exact absurd rfl (free.ne_literal value)
  | var name => exact constantFree_negateIf negated free
  | comparison name op constant => simp [Condition.pushNegation, ConstantFree, nodes, isConstant]
  | junction kind parts =>
      obtain ⟨nonempty, partsFree⟩ := constantFree_junction_iff.mp free
      rw [Condition.pushNegation]
      refine constantFree_junction_iff.mpr ⟨?_, constantFree_pushNegations partsFree negated⟩
      cases parts with
      | nil => exact absurd rfl nonempty
      | cons part rest => simp [pushNegations]
  | not operand =>
      rw [Condition.pushNegation]
      exact (constantFree_not_iff.mp free).pushNegation (!negated)
  | verbatim text => exact constantFree_negateIf negated free

theorem constantFree_pushNegations {parts : List Condition}
    (free : ∀ part ∈ parts, part.ConstantFree) (negated : Bool) :
    ∀ part ∈ pushNegations negated parts, part.ConstantFree := by
  cases parts with
  | nil => simp [pushNegations]
  | cons part rest =>
      rw [List.forall_mem_cons] at free
      rw [pushNegations, List.forall_mem_cons]
      exact ⟨free.1.pushNegation negated, constantFree_pushNegations free.2 negated⟩

end

/-- A condition without constants splices into some parts, none of them constant. -/
theorem ConstantFree.splice {condition : Condition} (free : condition.ConstantFree)
    (kind : Junction) :
    splice kind condition ≠ [] ∧ ∀ part ∈ splice kind condition, part.ConstantFree := by
  cases condition with
  | junction inner parts =>
      rw [Condition.splice]
      split
      · exact constantFree_junction_iff.mp free
      · exact ⟨List.cons_ne_nil _ _, List.forall_mem_singleton.mpr free⟩
  | literal | var | comparison | not | verbatim =>
      exact ⟨List.cons_ne_nil _ _, List.forall_mem_singleton.mpr free⟩

private theorem constantFree_ofParts {kind : Junction} {parts : List Condition}
    (nonempty : parts ≠ [])
    (free : ∀ part ∈ parts, part.ConstantFree) : (ofParts kind parts).ConstantFree := by
  match parts with
  | [] => exact absurd rfl nonempty
  | [part] => exact free part List.mem_cons_self
  | first :: second :: rest => exact constantFree_junction_iff.mpr ⟨nonempty, free⟩

/-- Without constants, nothing is folded away. -/
theorem constantFree_foldJunction {kind : Junction} {parts : List Condition}
    (nonempty : parts ≠ []) (free : ∀ part ∈ parts, part.ConstantFree) :
    (foldJunction kind parts).ConstantFree := by
  have noLiteral : ∀ value, ∀ part ∈ parts, part.isLiteral value = false := by
    intro value part member
    rw [← Bool.not_eq_true, isLiteral_iff]
    exact (free part member).ne_literal value
  have notSettled : ¬ parts.any (isLiteral kind.decisive) = true := by
    rw [List.any_eq_true]
    rintro ⟨part, member, isDecisive⟩
    rw [noLiteral _ part member] at isDecisive
    cases isDecisive
  have allKept : parts.filter (fun part => !part.isLiteral kind.unit) = parts := by
    rw [List.filter_eq_self]
    intro part member
    rw [noLiteral _ part member]
    rfl
  rw [foldJunction, if_neg notSettled, allKept]
  apply constantFree_ofParts
  · obtain ⟨part, member⟩ := List.exists_mem_of_ne_nil parts nonempty
    obtain ⟨spliced, isSpliced⟩ :=
      List.exists_mem_of_ne_nil _ ((free part member).splice kind).1
    have isPart : spliced ∈ parts.flatMap (Condition.splice kind) :=
      List.mem_flatMap.mpr ⟨part, member, isSpliced⟩
    exact List.ne_nil_of_mem ((SortedSet.mem_ofList_iff compare_eq_iff _ _).mpr isPart)
  · intro spliced isSpliced
    rw [SortedSet.mem_ofList_iff compare_eq_iff] at isSpliced
    obtain ⟨part, member, inPart⟩ := List.mem_flatMap.mp isSpliced
    exact ((free part member).splice kind).2 spliced inPart

mutual

/-- Folding a condition without constants keeps it free of them and loses no comparison. -/
theorem ConstantFree.fold {condition : Condition} (free : condition.ConstantFree) :
    (fold condition).ConstantFree ∧
      ∀ name constant,
        (fold condition).Compares name constant ↔ condition.Compares name constant := by
  cases condition with
  | junction kind parts =>
      obtain ⟨nonempty, partsFree⟩ := constantFree_junction_iff.mp free
      obtain ⟨foldedFree, sameCompared⟩ := constantFree_foldAll partsFree
      rw [Condition.fold]
      constructor
      · refine constantFree_foldJunction ?_ foldedFree
        cases parts with
        | nil => exact absurd rfl nonempty
        | cons part rest => simp [foldAll]
      · intro name constant
        have unsettled : ∀ part ∈ foldAll parts, part ≠ literal kind.decisive :=
          fun part member => (foldedFree part member).ne_literal _
        rw [compares_foldJunction unsettled, compares_junction_iff]
        exact sameCompared name constant
  | literal | var | comparison | not | verbatim => exact ⟨free, fun _ _ => Iff.rfl⟩

theorem constantFree_foldAll {parts : List Condition}
    (free : ∀ part ∈ parts, part.ConstantFree) :
    (∀ part ∈ foldAll parts, part.ConstantFree) ∧
      ∀ name constant,
        (∃ part ∈ foldAll parts, part.Compares name constant) ↔
          ∃ part ∈ parts, part.Compares name constant := by
  cases parts with
  | nil => simp [foldAll]
  | cons part rest =>
      rw [List.forall_mem_cons] at free
      obtain ⟨foldedFree, sameCompared⟩ := free.1.fold
      obtain ⟨restFree, sameInRest⟩ := constantFree_foldAll free.2
      rw [foldAll, List.forall_mem_cons]
      refine ⟨⟨foldedFree, restFree⟩, ?_⟩
      intro name constant
      rw [List.exists_mem_cons_iff, List.exists_mem_cons_iff, sameCompared, sameInRest]

end

private theorem nodes_eq_cons (condition : Condition) :
    condition.nodes = condition :: condition.nodes.tail := by
  cases condition <;> rfl

/-- The normal form compares the same names with the same constants. -/
theorem ConstantFreeInside.compares_normalize {condition : Condition}
    (inside : condition.ConstantFreeInside) (name : String) (constant : Value) :
    condition.normalize.Compares name constant ↔ condition.Compares name constant := by
  cases atTop : condition.isConstant with
  | true =>
      cases condition with
      | literal value => exact iff_of_false (not_compares_literal _) (not_compares_literal _)
      | junction kind parts =>
          rw [isConstant, List.isEmpty_iff] at atTop
          rw [atTop]
          exact iff_of_false (not_compares_literal kind.unit) (by simp)
      | var | comparison | not | verbatim => cases atTop
  | false =>
      have free : condition.ConstantFree := by
        rw [ConstantFree, nodes_eq_cons, List.forall_mem_cons]
        exact ⟨atTop, inside⟩
      rw [normalize, (free.pushNegation false).fold.2, compares_pushNegation]

end Condition

/-- The samples depend on the set of thresholds only, since they ascend strictly. -/
theorem sampleIntegers_congr
    {thresholds others : Thresholds}
    (same : ∀ threshold, threshold ∈ thresholds.all ↔ threshold ∈ others.all)
    (min max : Int64) (cutoff : Nat) :
    sampleIntegers min max thresholds cutoff = sampleIntegers min max others cutoff := by
  have sameMembers : ∀ tested,
      tested ∈ sampleIntegers min max thresholds cutoff ↔
        tested ∈ sampleIntegers min max others cutoff := by
    intro tested
    simp only [mem_sampleIntegers_iff, same]
  have irreflexive : Std.Irrefl fun first second : Int64 => first.toInt < second.toInt :=
    ⟨fun _ => lt_irrefl _⟩
  have antisymmetric : Std.Antisymm fun first second : Int64 => first.toInt < second.toInt :=
    ⟨fun _ _ before after => absurd after (lt_asymm before)⟩
  exact (sampleIntegers_ascending min max thresholds cutoff).eq_of_mem_iff
    (sampleIntegers_ascending min max others cutoff) sameMembers

/-- The samples of a domain depend on the constants that conditions compare the name with. -/
theorem Domain.sample_congr
    {name : String} {conditions others : List Condition}
    (same : ∀ constant, (∃ condition ∈ conditions, condition.Compares name constant) ↔
      ∃ condition ∈ others, condition.Compares name constant)
    (domain : Domain) (cutoff : Nat) :
    domain.sample name conditions cutoff = domain.sample name others cutoff := by
  cases domain with
  | boolean => rfl
  | untyped => rfl
  | range min max =>
      have sameThresholds : ∀ threshold,
          threshold ∈ (Thresholds.collect name conditions).all ↔
            threshold ∈ (Thresholds.collect name others).all := by
        intro threshold
        rw [Thresholds.mem_all_collect_iff, Thresholds.mem_all_collect_iff]
        exact same (.int threshold)
      rw [sample, sample, sampleIntegers_congr sameThresholds]

/-! ## Tables -/

/-- Both cells name the same rule and result, or none. -/
def Cell.Alike : Cell → Cell → Prop
  | .hit rule result, .hit otherRule otherResult => rule = otherRule ∧ result = otherResult
  | .unknown _, .unknown _ => True
  | _, _ => False

namespace Model

@[simp]
theorem conditions_simplify (model : Model) :
    model.simplify.conditions = model.conditions.map Condition.normalize := by
  simp only [conditions, simplify, withRules, List.map_map]
  rfl

/-- A simplified model has the samples of the model where constants stand at the top of conditions
only. -/
theorem samples_simplify
    {model : Model} (inside : ∀ condition ∈ model.conditions, condition.ConstantFreeInside)
    (cutoff : Nat) : model.simplify.samples cutoff = model.samples cutoff := by
  have sameCompared : ∀ name constant,
      (∃ condition ∈ model.simplify.conditions, condition.Compares name constant) ↔
        ∃ condition ∈ model.conditions, condition.Compares name constant := by
    intro name constant
    rw [conditions_simplify]
    constructor
    · rintro ⟨_, member, compares⟩
      obtain ⟨condition, isCondition, rfl⟩ := List.mem_map.mp member
      exact ⟨condition, isCondition,
        ((inside condition isCondition).compares_normalize name constant).mp compares⟩
    · rintro ⟨condition, isCondition, compares⟩
      exact ⟨condition.normalize, List.mem_map_of_mem isCondition,
        ((inside condition isCondition).compares_normalize name constant).mpr compares⟩
  change model.parameters.map _ = model.parameters.map _
  refine List.map_congr_left ?_
  intro parameter _
  rw [Domain.sample_congr (sameCompared parameter.name)]

/-- A model and its simplified form come to the same, up to the reason why there is no outcome. -/
theorem outcome_simplify (model : Model) (env : Env) :
    (model.outcome env).Alike (model.simplify.outcome env) := by
  have sameSelection := firstMatch_simplify_toOption env model.rules
  cases selection : firstMatch env model.rules with
  | error cause =>
      rw [selection] at sameSelection
      obtain ⟨other, failed⟩ := toOption_eq_none_iff.mp sameSelection
      simp only [outcome, simplify, withRules, selection, failed, Cell.Alike]
  | ok selected =>
      rw [selection] at sameSelection
      have simplified : firstMatch env model.simplify.rules = .ok selected :=
        toOption_eq_some_iff.mp sameSelection
      cases selected with
      | none => simp only [outcome, selection, simplified, Cell.Alike]
      | some index =>
          obtain ⟨rule, atIndex, isHit⟩ := outcome_of_match selection
          obtain ⟨other, otherAtIndex, otherIsHit⟩ := outcome_of_match simplified
          have isSimplified : other = rule.simplify := by
            change (model.rules.map Rule.simplify)[index]? = some other at otherAtIndex
            rw [List.getElem?_map, atIndex] at otherAtIndex
            exact (Option.some.inj otherAtIndex).symm
          rw [isHit, otherIsHit, isSimplified]
          exact ⟨rfl, rfl⟩

/-- Simplifying a model does not change the outcome of any combination that is in both tables. If
no literal and no empty junction stands inside a condition, the tables list the same
combinations. -/
theorem table_simplify (model : Model) (cutoff : Nat) :
    (∀ inputs cell simplified,
      ⟨inputs, cell⟩ ∈ (model.table cutoff).entries →
        ⟨inputs, simplified⟩ ∈ (model.simplify.table cutoff).entries → cell.Alike simplified) ∧
    ((∀ condition ∈ model.conditions, condition.ConstantFreeInside) →
      (model.simplify.table cutoff).samples = (model.table cutoff).samples ∧
        (model.simplify.table cutoff).entries.map TableEntry.inputs =
          (model.table cutoff).entries.map TableEntry.inputs) := by
  constructor
  · intro inputs cell simplified isEntry isSimplified
    rw [mem_table_entries_iff] at isEntry isSimplified
    rw [isEntry.2, isSimplified.2]
    exact model.outcome_simplify _
  · intro inside
    have sameSamples := samples_simplify inside cutoff
    refine ⟨sameSamples, ?_⟩
    rw [table_inputs, table_inputs, ← samples_values, ← samples_values, sameSamples]

/-- Simplified, the first rule compares by other operators and without its junction of one part,
and the texts of the second change places, the repeated one left out. -/
def toll : Model :=
  let light : Condition := .comparison "weight" .lt (.int 1000)
  let long : Condition := .comparison "length" .ge (.int 12)
  { functionName := "toll"
    parameters := [⟨"weight", .range 0 40000⟩, ⟨"length", .range 0 30⟩]
    rules :=
      [⟨.not (.junction .or [long, .not (.junction .and [light])]), .value (.int 0)⟩,
        ⟨.junction .or [.verbatim "weekend()", .verbatim "holiday()", .verbatim "weekend()"],
          .value (.int 5)⟩,
        ⟨.literal true, .value (.int 20)⟩] }

theorem table_simplify_toll :
    (∀ condition ∈ toll.conditions, condition.ConstantFreeInside) ∧
      (toll.simplify.table 10).samples = (toll.table 10).samples ∧
      ⟨[.int 999, .int 12], .unknown (.failure (.unevaluable "weekend()"))⟩ ∈
        (toll.table 10).entries ∧
      ⟨[.int 999, .int 12], .unknown (.failure (.unevaluable "holiday()"))⟩ ∈
        (toll.simplify.table 10).entries ∧
      Cell.Alike (.unknown (.failure (.unevaluable "weekend()")))
        (.unknown (.failure (.unevaluable "holiday()"))) := by
  have inside : ∀ condition ∈ toll.conditions, condition.ConstantFreeInside := by decide
  have before : ⟨[.int 999, .int 12], .unknown (.failure (.unevaluable "weekend()"))⟩ ∈
      (toll.table 10).entries := by decide +kernel
  have after : ⟨[.int 999, .int 12], .unknown (.failure (.unevaluable "holiday()"))⟩ ∈
      (toll.simplify.table 10).entries := by decide +kernel
  obtain ⟨sameCells, sameInputs⟩ := toll.table_simplify 10
  exact ⟨inside, (sameInputs inside).1, before, after, sameCells _ _ _ before after⟩

end Model

end Rulebook
