import Rulebook.Proofs.Evaluation
import Rulebook.Proofs.Smt.Valuation

/-!
# Evaluation is kept by completion

Evaluating a condition leaves it without a truth value where a name is not bound, where values
cannot be ordered and where it is kept as text. A valuation decides all of these. Wherever it gives
bound names the values they are bound to, it agrees with every truth value that evaluation has
found, and with every result of a decision.
-/

namespace Rulebook

/-- A truth value or a number as a solver has it. -/
def Value.datum? : Value → Option Smt.Datum
  | .bool value => some (.bool value)
  | .int value => some (.int value.toInt)
  | .none | .string _ => Option.none

/-- The valuation gives every bound name the value it is bound to. -/
def Valuation.Completes (valuation : Valuation) (env : Env) : Prop :=
  ∀ name value, env.get? name = some value → value.datum? = some (valuation.datum name)

private theorem Value.truthy_of_datum?
    {value : Value} {datum : Smt.Datum} (isDatum : value.datum? = some datum) :
    datum.truthy = value.truthy := by
  cases value with
  | none => cases isDatum
  | string _ => cases isDatum
  | bool _ =>
      cases isDatum
      rfl
  | int number =>
      cases isDatum
      have zero : number.toInt = 0 ↔ number = 0 := Int64.toInt_inj (y := 0)
      rw [Smt.Datum.truthy, truthy, Bool.eq_iff_iff, bne_iff_ne, bne_iff_ne, ne_eq, ne_eq, zero]

private theorem Value.asInt?_of_datum?
    {value : Value} {datum : Smt.Datum} (isDatum : value.datum? = some datum) :
    ∃ number : Int64, value.asInt? = some number ∧ number.toInt = datum.number := by
  cases value with
  | none => cases isDatum
  | string _ => cases isDatum
  | bool truth =>
      cases isDatum
      cases truth
      · exact ⟨0, rfl, rfl⟩
      · exact ⟨1, rfl, rfl⟩
  | int number =>
      cases isDatum
      exact ⟨number, rfl, rfl⟩

private theorem Value.eq_ne_of_related
    {value constant : Value} {number : Int64} (isNumber : value.asInt? = some number)
    (notNumber : constant.asInt? = .none) {op : Comparator} {decided : Bool}
    (related : value.related op constant = .ok decided) :
    decided = decide (op = .ne) := by
  have different : value ≠ constant := by
    rintro rfl
    rw [isNumber] at notNumber
    cases notNumber
  cases value with
  | none => cases isNumber
  | string _ => cases isNumber
  | bool _ | int _ =>
      simp only [Value.related, isNumber, notNumber] at related
      split at related
      · cases related
        simp [different]
      · cases related
        simp [different]
      · cases related

/-- A comparison that can be made comes out the same for the solver. -/
theorem Condition.holds_comparison_of_related
    {valuation : Valuation} {name : String} {op : Comparator} {constant value : Value}
    (isDatum : value.datum? = some (valuation.datum name)) {decided : Bool}
    (related : value.related op constant = .ok decided) :
    (comparison name op constant).holds valuation = decided := by
  obtain ⟨number, isNumber, same⟩ := Value.asInt?_of_datum? isDatum
  rw [holds]
  cases numeric : constant.asInt? with
  | some other =>
      simp only [Value.related, isNumber, numeric] at related
      cases related
      rw [same]
  | none => exact (Value.eq_ne_of_related isNumber numeric related).symm

private theorem Junction.holds_eq_decisive_iff (kind : Junction) (values : List Bool) :
    kind.holds values = kind.decisive ↔ kind.decisive ∈ values := by
  cases kind with
  | and => simp [holds, decisive]
  | or => simp [holds, decisive]

private theorem Junction.truth_map_some (kind : Junction) (values : List Bool) :
    kind.truth (values.map some) = some (kind.holds values) := by
  by_cases isDecisive : kind.holds values = kind.decisive
  · rw [isDecisive, truth_eq_decisive_iff, List.mem_map]
    exact ⟨_, (holds_eq_decisive_iff kind values).mp isDecisive, rfl⟩
  · rw [eq_unit_of_ne_decisive isDecisive, truth_eq_unit_iff, List.forall_mem_map]
    intro value member
    have notDecisive : value ≠ kind.decisive := by
      rintro rfl
      exact isDecisive ((holds_eq_decisive_iff kind values).mpr member)
    rw [eq_unit_of_ne_decisive notDecisive]

/-- A junction that is settled stays so when its undecided parts are filled in. -/
theorem Junction.holds_of_truth
    {kind : Junction} {truths : List (Option Bool)} {values : List Bool} {decided : Bool}
    (completed : List.Forall₂ (fun truth value => ∀ known, truth = some known → value = known)
      truths values)
    (settled : kind.truth truths = some decided) : kind.holds values = decided := by
  have kept : List.Forall₂ (fun truth other => ∀ known, truth = some known → other = some known)
      truths (values.map some) := by
    rw [List.forall₂_map_right_iff]
    apply completed.imp
    intro truth value agrees known isKnown
    exact congrArg some (agrees known isKnown)
  have sameTruth := truth_mono kept settled
  rw [truth_map_some] at sameTruth
  exact Option.some.inj sameTruth

section Completing

variable {valuation : Valuation} {env : Env}

namespace Condition

mutual

/-- A condition with a truth value has it under all valuations that complete the bindings. -/
theorem holds_of_truth
    (completes : valuation.Completes env) (condition : Condition) {decided : Bool}
    (isTruth : condition.truth env = some decided) :
    condition.holds valuation = decided := by
  match condition with
  | .literal value => exact Option.some.inj isTruth
  | .verbatim _ => cases isTruth
  | .var name =>
      rw [truth_var] at isTruth
      obtain ⟨value, found, rfl⟩ := Option.map_eq_some_iff.mp isTruth
      rw [holds]
      exact Value.truthy_of_datum? (completes name value found)
  | .comparison name op constant =>
      rw [truth_comparison] at isTruth
      obtain ⟨value, found, related⟩ := Option.bind_eq_some_iff.mp isTruth
      exact holds_comparison_of_related (completes name value found)
        (toOption_eq_some_iff.mp related)
  | .not operand =>
      rw [truth_not] at isTruth
      obtain ⟨value, operandTruth, rfl⟩ := Option.map_eq_some_iff.mp isTruth
      rw [holds, holds_of_truth completes operand operandTruth]
  | .junction kind parts =>
      rw [truth_junction] at isTruth
      rw [holds]
      refine Junction.holds_of_truth ?_ isTruth
      rw [List.forall₂_map_left_iff]
      exact holdsAll_of_truth completes parts

theorem holdsAll_of_truth (completes : valuation.Completes env) (parts : List Condition) :
    List.Forall₂ (fun part value => ∀ known, part.truth env = some known → value = known)
      parts (holdsAll valuation parts) := by
  match parts with
  | [] => exact .nil
  | part :: rest =>
      rw [holdsAll]
      exact .cons (fun _ known => holds_of_truth completes part known)
        (holdsAll_of_truth completes rest)

end

end Condition

/-- A decision that can be evaluated is the one that the solver comes to. -/
theorem Decision.choose_of_eval
    (completes : valuation.Completes env) (decision : Decision) {output : Literal}
    (evaluated : decision.eval env = .ok output) :
    decision.choose valuation = output := by
  induction decision with
  | leaf result => exact Except.ok.inj evaluated
  | branch condition result otherwise inductionHypothesis =>
      rw [eval] at evaluated
      rw [choose]
      split at evaluated
      · cases evaluated
      · rename_i isTrue
        have holds := Condition.holds_of_truth completes condition
          (Condition.truth_eq_some_iff.mpr isTrue)
        rw [if_pos holds]
        exact Except.ok.inj evaluated
      · rename_i isFalse
        have fails := Condition.holds_of_truth completes condition
          (Condition.truth_eq_some_iff.mpr isFalse)
        rw [fails, if_neg Bool.false_ne_true]
        exact inductionHypothesis evaluated

end Completing

end Rulebook
