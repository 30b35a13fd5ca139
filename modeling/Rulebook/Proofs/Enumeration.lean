import Rulebook.Obligation.Enumeration
import Rulebook.Proofs.Odometer
import Rulebook.Proofs.Samples
import Rulebook.Proofs.TextMap

/-!
# Enumeration is exact

Enumerating an obligation over finite domains looks at every admissible assignment and reports the
first one, in lexicographic order, that the decision does not answer with a valid output.
-/

namespace Rulebook

/-- The values are those that a variable may take, in their order: both truth values, every
integer of a range that is bounded on both sides, or the integers of a value set as they are
given. A variable without such a constraint has no finite list of values. -/
def Variable.Lists (var : Variable) (constraint : Option Constraint) (values : List Value) :
    Prop :=
  match var.sort, constraint with
  | .bool, _ => values = [.bool false, .bool true]
  | .int, some (.range (some min) (some max)) =>
      ∃ integers : List Int64, values = integers.map .int ∧
        (integers.Pairwise fun first second => first.toInt < second.toInt) ∧
        ∀ integer, integer ∈ integers ↔
          min.toInt ≤ integer.toInt ∧ integer.toInt ≤ max.toInt
  | .int, some (.oneOf integers) => values = integers.map .int
  | .int, _ => False

/-- What counts as finite is listed in full. -/
theorem Variable.lists_admissible
    {var : Variable} {constraint : Option Constraint} {size : Nat}
    (finite : var.size? constraint = some size) :
    var.Lists constraint (var.admissible constraint) := by
  obtain ⟨name, sort, isParameter⟩ := var
  cases sort with
  | bool => rfl
  | int =>
      match constraint with
      | none | some .boolean => cases finite
      | some (.range none _) | some (.range (some _) none) => cases finite
      | some (.range (some min) (some max)) =>
          exact ⟨_, rfl, integersBetween_ascending min max, mem_integersBetween_iff min max⟩
      | some (.oneOf integers) => rfl

/-- The domains that are enumerated list the admissible values of each unknown. -/
theorem Obligation.lists_of_domainsFrom
    {constraints : TextMap Constraint} {limit total : Nat} {unknowns : List Variable}
    {domains : List (List Value)}
    (finite : domainsFrom constraints limit total unknowns = .ok domains) :
    List.Forall₂ (fun var values => var.Lists (constraints.get? var.name) values)
      unknowns domains := by
  induction unknowns generalizing total domains with
  | nil =>
      cases finite
      exact .nil
  | cons var rest inductionHypothesis =>
      simp only [domainsFrom] at finite
      cases sized : var.size? (constraints.get? var.name) with
      | none => simp [sized] at finite
      | some size =>
          simp only [sized] at finite
          split at finite
          · cases finite
          · cases tail : domainsFrom constraints limit (total * size) rest with
            | error doubt => simp [tail, Except.map] at finite
            | ok others =>
                rw [tail] at finite
                cases finite
                exact .cons (Variable.lists_admissible sized) (inductionHypothesis tail)

namespace Obligation

/-- The decision answers the assignment with a valid output. -/
def Accepts (obligation : Obligation) (values : List Value) : Prop :=
  ∃ output, obligation.decision.eval (obligation.env values) = .ok output ∧
    output ∈ obligation.validOutputs

/-- The first assignment, in lexicographic order, that is not answered with a valid output. -/
def FirstObjection
    (obligation : Obligation) (domains : List (List Value)) (values : List Value) : Prop :=
  ∃ places, Choice domains places values ∧ ¬ obligation.Accepts values ∧
    ∀ earlier others, Choice domains earlier others → earlier < places →
      obligation.Accepts others

/-- What an assignment gives to the parameter of a name, the last one if there are several. -/
def parameterValue? (obligation : Obligation) (values : List Value) (name : String) :
    Option Value :=
  ((obligation.unknowns.zip values).reverse.find? fun (var, _) =>
    var.isParameter && var.name == name).map (·.2)

/-- An assignment gives no objection exactly if it is accepted. -/
theorem objection?_eq_none_iff (obligation : Obligation) (values : List Value) :
    obligation.objection? values = none ↔ obligation.Accepts values := by
  rw [objection?, Accepts]
  cases obligation.decision.eval (obligation.env values) with
  | error cause => simp
  | ok output =>
      by_cases valid : output ∈ obligation.validOutputs
      · simp [isValidOutput, valid]
      · simp [isValidOutput, valid]

theorem objection?_ne_valid (obligation : Obligation) (values : List Value) :
    obligation.objection? values ≠ some .valid := by
  rw [objection?]
  split
  · split <;> simp
  · simp

theorem objection?_eq_invalid_iff
    (obligation : Obligation) (values : List Value) (counterexample : Counterexample) :
    obligation.objection? values = some (.invalid counterexample) ↔
      ∃ output, obligation.decision.eval (obligation.env values) = .ok output ∧
        output ∉ obligation.validOutputs ∧
        obligation.counterexample values = counterexample := by
  rw [objection?]
  cases obligation.decision.eval (obligation.env values) with
  | error cause => simp
  | ok output =>
      by_cases valid : output ∈ obligation.validOutputs
      · simp [isValidOutput, valid]
      · simp [isValidOutput, valid]

private theorem objection?_eq_unknown_iff
    (obligation : Obligation) (values : List Value) (doubt : Doubt) :
    obligation.objection? values = some (.unknown doubt) ↔
      ∃ cause, obligation.decision.eval (obligation.env values) = .error cause ∧
        doubt = .evaluation cause := by
  rw [objection?]
  cases obligation.decision.eval (obligation.env values) with
  | error cause => simp [eq_comm]
  | ok output =>
      by_cases valid : output ∈ obligation.validOutputs
      · simp [isValidOutput, valid]
      · simp [isValidOutput, valid]

/-- A search for the first objection finds the first assignment that is not accepted. -/
theorem findCombination_objection?_eq_some_iff
    (obligation : Obligation) (domains : List (List Value)) (verdict : Verdict) :
    findCombination obligation.objection? domains = some verdict ↔
      ∃ values, obligation.FirstObjection domains values ∧
        obligation.objection? values = some verdict := by
  rw [findCombination_eq_some_iff]
  constructor
  · rintro ⟨places, values, choice, objects, first⟩
    refine ⟨values, ⟨places, choice, ?_, ?_⟩, objects⟩
    · intro accepted
      rw [(objection?_eq_none_iff obligation values).mpr accepted] at objects
      cases objects
    · intro earlier others otherChoice before
      exact (objection?_eq_none_iff obligation others).mp
        (first earlier others otherChoice before)
  · rintro ⟨values, ⟨places, choice, _, first⟩, objects⟩
    refine ⟨places, values, choice, objects, ?_⟩
    intro earlier others otherChoice before
    exact (objection?_eq_none_iff obligation others).mpr
      (first earlier others otherChoice before)

private theorem lookup_filterMap_parameters
    (pairs : List (Variable × Value)) (name : String) :
    (pairs.filterMap fun (var, value) =>
        if var.isParameter then some (var.name, value) else none).lookup name =
      (pairs.find? fun (var, _) => var.isParameter && var.name == name).map (·.2) := by
  induction pairs with
  | nil => rfl
  | cons pair rest inductionHypothesis =>
      obtain ⟨var, value⟩ := pair
      by_cases parameter : var.isParameter = true
      · by_cases same : name = var.name
        · simp [parameter, same]
        · simp [parameter, TextMap.lookup_cons_eq_ite, same, Ne.symm same, inductionHypothesis]
      · simp [parameter, inductionHypothesis]

/-- A counterexample gives each parameter its value in the assignment. -/
theorem get?_counterexample
    (obligation : Obligation) (values : List Value) (name : String) :
    (obligation.counterexample values).values.get? name =
      obligation.parameterValue? values name := by
  rw [counterexample, TextMap.get?_ofList, ← List.filterMap_reverse,
    lookup_filterMap_parameters]
  rfl

private theorem counterexample_eq_iff
    (obligation : Obligation) (values : List Value) (counterexample : Counterexample) :
    obligation.counterexample values = counterexample ↔
      ∀ name, counterexample.values.get? name = obligation.parameterValue? values name := by
  constructor
  · rintro rfl name
    exact get?_counterexample obligation values name
  · intro same
    have sameValues : (obligation.counterexample values).values = counterexample.values := by
      apply TextMap.ext_get?
      intro name
      rw [get?_counterexample, same]
    cases counterexample
    exact congrArg Counterexample.mk sameValues

theorem enumerate_eq
    {obligation : Obligation} {limit : Nat} {domains : List (List Value)}
    (finite : obligation.domains limit = .ok domains) :
    obligation.enumerate limit ⟨none, false⟩ =
      .ok ((findCombination obligation.objection? domains).getD .valid) := by
  simp [enumerate, finite, Budget.outlastsClock, Budget.interruption?]

/-- Enumeration tests the assignments that an odometer over the domains shows, one after another,
and stops at the first objection. -/
theorem enumerate_of_turns
    {obligation : Obligation} {limit : Nat} {domains : List (List Value)}
    (finite : obligation.domains limit = .ok domains) {shown : List (List Value)}
    (turned : Turns domains (startingPlaces (domains.map List.length)) shown) :
    obligation.enumerate limit ⟨none, false⟩ =
      .ok ((shown.findSome? obligation.objection?).getD .valid) := by
  rw [enumerate_eq finite, findCombination_of_turns turned]

/-- Enumeration over finite domains gives the verdict of the first assignment that is not answered
with a valid output, and finds the obligation valid only if there is none. -/
theorem enumerate_exact
    (obligation : Obligation) (limit : Nat) (domains : List (List Value))
    (finite : obligation.domains limit = .ok domains) :
    List.Forall₂ (fun var values => var.Lists (obligation.constraints.get? var.name) values)
      obligation.unknowns domains ∧
    (obligation.enumerate limit ⟨none, false⟩ = .ok .valid ↔
      ∀ places values, Choice domains places values → obligation.Accepts values) ∧
    (∀ counterexample,
      obligation.enumerate limit ⟨none, false⟩ = .ok (.invalid counterexample) ↔
        ∃ values output, obligation.FirstObjection domains values ∧
          obligation.decision.eval (obligation.env values) = .ok output ∧
          output ∉ obligation.validOutputs ∧
          ∀ name, counterexample.values.get? name = obligation.parameterValue? values name) ∧
    (∀ doubt,
      obligation.enumerate limit ⟨none, false⟩ = .ok (.unknown doubt) ↔
        ∃ values cause, obligation.FirstObjection domains values ∧
          obligation.decision.eval (obligation.env values) = .error cause ∧
          doubt = .evaluation cause) := by
  have search : ∀ verdict, verdict ≠ .valid →
      (obligation.enumerate limit ⟨none, false⟩ = .ok verdict ↔
        ∃ values, obligation.FirstObjection domains values ∧
          obligation.objection? values = some verdict) := by
    intro verdict notValid
    rw [enumerate_eq finite, ← findCombination_objection?_eq_some_iff]
    cases findCombination obligation.objection? domains with
    | none => simp [Ne.symm notValid]
    | some found => simp
  refine ⟨lists_of_domainsFrom finite, ?_, ?_, ?_⟩
  · rw [enumerate_eq finite]
    simp only [← objection?_eq_none_iff, ← findCombination_eq_none_iff]
    cases found : findCombination obligation.objection? domains with
    | none => simp
    | some verdict =>
        obtain ⟨values, _, objects⟩ :=
          (findCombination_objection?_eq_some_iff obligation domains verdict).mp found
        have notValid : verdict ≠ .valid := by
          rintro rfl
          exact objection?_ne_valid obligation values objects
        simp [notValid]
  · intro counterexample
    rw [search _ (by simp)]
    simp only [objection?_eq_invalid_iff, counterexample_eq_iff]
    constructor
    · rintro ⟨values, first, output, evaluates, invalid, same⟩
      exact ⟨values, output, first, evaluates, invalid, same⟩
    · rintro ⟨values, output, first, evaluates, invalid, same⟩
      exact ⟨values, first, output, evaluates, invalid, same⟩
  · intro doubt
    rw [search _ (by simp)]
    simp only [objection?_eq_unknown_iff]
    constructor
    · rintro ⟨values, first, cause, evaluates, same⟩
      exact ⟨values, cause, first, evaluates, same⟩
    · rintro ⟨values, cause, first, evaluates, same⟩
      exact ⟨values, first, cause, evaluates, same⟩

/-- An obligation over a value set with a repetition and a name that is no parameter. -/
def repeatedValue : Obligation where
  functionName := "limit"
  unknowns := [⟨"n", .int, true⟩, ⟨"open", .bool, false⟩]
  decision :=
    .branch (.junction .and [.comparison "n" .lt (.int 2), .var "open"]) (.value (.int 0))
      (.leaf (.value (.int 1)))
  constraints := .ofList [("n", .oneOf [2, 2, 1])]
  validOutputs := [.value (.int 1)]

/-- The first five assignments are answered with a valid output, the last one is not. -/
theorem enumerate_exact_repeatedValue :
    ∃ values output,
      repeatedValue.FirstObjection
        [[.int 2, .int 2, .int 1], [.bool false, .bool true]] values ∧
      repeatedValue.decision.eval (repeatedValue.env values) = .ok output ∧
      output ∉ repeatedValue.validOutputs ∧
      ∀ name, (TextMap.ofList [("n", .int 1)]).get? name =
        repeatedValue.parameterValue? values name := by
  have exact := enumerate_exact repeatedValue 6
    [[.int 2, .int 2, .int 1], [.bool false, .bool true]] (by decide)
  exact (exact.2.2.1 ⟨.ofList [("n", .int 1)]⟩).mp (by decide)

end Obligation

end Rulebook
