import Rulebook.Proofs.Enumeration
import Rulebook.Proofs.Smt.Completion
import Rulebook.Proofs.Smt.Encoding

/-!
# Enumeration and encoding agree

An obligation can be checked by enumerating its assignments or by asking a solver about its script.
The two work with different notions of truth. Enumeration evaluates the decision, and an evaluation
without result ends the check undecided. The script reads the decision in two-valued logic, over
integers of any size, and leaves conditions kept as text to the solver.

A finished check by enumeration never contradicts the script. Both sides admit the same values of
each unknown, and a result that evaluation has found is that of every completion. So the script of
an obligation that was found valid cannot be satisfied, and a counterexample extends to an
assignment that satisfies the script.
-/

namespace Rulebook

namespace Variable

variable {var : Variable} {constraint : Option Constraint} {values : List Value}

/-- A listed value is of the sort of the variable and meets its constraint. -/
theorem admits_of_mem_lists
    (lists : var.Lists constraint values)
    (sorted : ∀ known, constraint = some known → known.sort = var.sort)
    {value : Value} (member : value ∈ values) :
    ∃ datum, value.datum? = some datum ∧ datum.sort = var.sort ∧
      ∀ known, constraint = some known → known.Admits datum := by
  obtain ⟨name, sort, isParameter⟩ := var
  cases sort with
  | bool =>
      have isTruth : ∃ truth, value = .bool truth := by
        change values = [.bool false, .bool true] at lists
        rw [lists] at member
        simp only [List.mem_cons, List.not_mem_nil, or_false] at member
        rcases member with rfl | rfl
        · exact ⟨false, rfl⟩
        · exact ⟨true, rfl⟩
      obtain ⟨truth, rfl⟩ := isTruth
      refine ⟨.bool truth, rfl, rfl, ?_⟩
      intro known isKnown
      have knownSort := sorted known isKnown
      cases known with
      | boolean => trivial
      | range _ _ => cases knownSort
      | oneOf _ => cases knownSort
  | int =>
      match constraint with
      | none | some .boolean | some (.range none _) | some (.range (some _) none) => cases lists
      | some (.range (some min) (some max)) =>
          obtain ⟨integers, rfl, _, inRange⟩ := lists
          obtain ⟨integer, listed, rfl⟩ := List.mem_map.mp member
          obtain ⟨lower, upper⟩ := (inRange integer).mp listed
          refine ⟨.int integer.toInt, rfl, rfl, ?_⟩
          rintro _ ⟨⟩
          exact ⟨fun bound isBound => Option.some.inj isBound ▸ lower,
            fun bound isBound => Option.some.inj isBound ▸ upper⟩
      | some (.oneOf integers) =>
          change values = integers.map .int at lists
          rw [lists] at member
          obtain ⟨integer, listed, rfl⟩ := List.mem_map.mp member
          refine ⟨.int integer.toInt, rfl, rfl, ?_⟩
          rintro _ ⟨⟩
          exact ⟨integer, listed, rfl⟩

/-- What the constraint of a variable admits is listed. -/
theorem exists_mem_lists_of_admits
    (lists : var.Lists constraint values)
    {datum : Smt.Datum} (ofSort : datum.sort = var.sort)
    (admitted : ∀ known, constraint = some known → known.Admits datum) :
    ∃ value ∈ values, value.datum? = some datum := by
  obtain ⟨name, sort, isParameter⟩ := var
  cases sort with
  | bool =>
      change values = [.bool false, .bool true] at lists
      cases datum with
      | int _ => cases ofSort
      | bool truth =>
          refine ⟨.bool truth, ?_, rfl⟩
          rw [lists]
          cases truth <;> simp
  | int =>
      cases datum with
      | bool _ => cases ofSort
      | int number =>
          match constraint with
          | none | some .boolean | some (.range none _) | some (.range (some _) none) => cases lists
          | some (.range (some min) (some max)) =>
              obtain ⟨integers, rfl, _, inRange⟩ := lists
              obtain ⟨above, below⟩ := admitted _ rfl
              have lower := above min rfl
              have upper := below max rfl
              have isWord := toInt_ofInt_between lower upper
              refine ⟨.int (Int64.ofInt number), List.mem_map.mpr ⟨_, ?_, rfl⟩, ?_⟩
              · rw [inRange, isWord]
                exact ⟨lower, upper⟩
              · rw [Value.datum?, isWord]
          | some (.oneOf integers) =>
              change values = integers.map .int at lists
              obtain ⟨integer, listed, same⟩ := admitted _ rfl
              refine ⟨.int integer, ?_, by rw [Value.datum?, same]⟩
              rw [lists]
              exact List.mem_map.mpr ⟨integer, listed, rfl⟩

end Variable

namespace Obligation

variable {obligation : Obligation}

/-- A check that is not interrupted comes to the first objection among all assignments. -/
theorem enumerate_eq_ok
    {limit : Nat} {budget : Budget} {verdict : Verdict}
    (finished : obligation.enumerate limit budget = .ok verdict) :
    (∃ doubt, verdict = .unknown doubt) ∨
      ∃ domains, obligation.domains limit = .ok domains ∧
        verdict = ((combinations domains).findSome? obligation.objection?).getD .valid := by
  rw [enumerate] at finished
  cases finite : obligation.domains limit with
  | error doubt =>
      rw [finite] at finished
      cases finished
      exact .inl ⟨doubt, rfl⟩
  | ok domains =>
      refine .inr ⟨domains, rfl, ?_⟩
      simp only [finite] at finished
      split at finished
      · cases finished
      · split at finished
        · rw [findCombination_eq] at finished
          exact (Except.ok.inj finished).symm
        · rw [← List.take_append_drop checkInterval (combinations domains),
            List.findSome?_append]
          split at finished
          · rename_i objected
            rw [objected]
            exact (Except.ok.inj finished).symm
          · rename_i unobjected
            split at finished
            · cases finished
            · rename_i few
              have nothingLeft : (combinations domains).drop checkInterval = [] :=
                List.drop_eq_nil_of_le (Nat.le_of_not_lt few)
              rw [unobjected, nothingLeft]
              exact (Except.ok.inj finished).symm

private theorem accepts_of_enumerate_valid
    {limit : Nat} {budget : Budget} (finished : obligation.enumerate limit budget = .ok .valid) :
    ∃ domains, obligation.domains limit = .ok domains ∧
      ∀ values ∈ combinations domains, obligation.Accepts values := by
  rcases enumerate_eq_ok finished with ⟨doubt, impossible⟩ | ⟨domains, finite, isVerdict⟩
  · cases impossible
  · refine ⟨domains, finite, ?_⟩
    cases found : (combinations domains).findSome? obligation.objection? with
    | none =>
        intro values member
        exact (objection?_eq_none_iff obligation values).mp
          (List.findSome?_eq_none_iff.mp found values member)
    | some verdict =>
        obtain ⟨values, _, objects⟩ := List.exists_of_findSome?_eq_some found
        rw [found, Option.getD_some] at isVerdict
        rw [← isVerdict] at objects
        exact absurd objects (objection?_ne_valid obligation values)

private theorem exists_objection_of_enumerate_invalid
    {limit : Nat} {budget : Budget} {counterexample : Counterexample}
    (finished : obligation.enumerate limit budget = .ok (.invalid counterexample)) :
    ∃ domains, obligation.domains limit = .ok domains ∧
      ∃ values ∈ combinations domains,
        obligation.objection? values = some (.invalid counterexample) := by
  rcases enumerate_eq_ok finished with ⟨doubt, impossible⟩ | ⟨domains, finite, isVerdict⟩
  · cases impossible
  · refine ⟨domains, finite, ?_⟩
    cases found : (combinations domains).findSome? obligation.objection? with
    | none =>
        rw [found] at isVerdict
        cases isVerdict
    | some verdict =>
        rw [found, Option.getD_some] at isVerdict
        rw [← isVerdict] at found
        exact List.exists_of_findSome?_eq_some found

/-! ## Assignments of values -/

/-- Values of the unknowns, each of its sort and within its constraint. -/
def Admissible (obligation : Obligation) (values : List Value) : Prop :=
  List.Forall₂
    (fun var value => ∃ datum, value.datum? = some datum ∧ datum.sort = var.sort ∧
      ∀ known, obligation.constraints.get? var.name = some known → known.Admits datum)
    obligation.unknowns values

/-- The valuation gives the unknowns the listed values. -/
def Valued (obligation : Obligation) (valuation : Valuation) (values : List Value) : Prop :=
  List.Forall₂ (fun var value => value.datum? = some (valuation.datum var.name))
    obligation.unknowns values

private theorem Valued.completes
    (distinct : (obligation.unknowns.map Variable.name).Nodup)
    {valuation : Valuation} {values : List Value} (valued : obligation.Valued valuation values) :
    valuation.Completes (obligation.env values) := by
  intro name value found
  by_cases isUnknown : name ∈ obligation.unknowns.map Variable.name
  · obtain ⟨var, unknown, rfl⟩ := List.mem_map.mp isUnknown
    obtain ⟨other, otherFound, isDatum⟩ := Env.exists_get?_ofList_zip distinct valued unknown
    rw [env, otherFound] at found
    rw [← Option.some.inj found]
    exact isDatum
  · rw [env, Env.get?_ofList_zip_eq_none isUnknown] at found
    cases found

private theorem Valued.parameterValue?
    {valuation : Valuation} {values : List Value} (valued : obligation.Valued valuation values)
    {var : Variable} (unknown : var ∈ obligation.unknowns) (isParameter : var.isParameter = true) :
    ∃ value, obligation.parameterValue? values var.name = some value ∧
      value.datum? = some (valuation.datum var.name) := by
  obtain ⟨value, paired⟩ := exists_mem_zip valued.length_eq unknown
  cases found : obligation.parameterValue? values var.name with
  | none =>
      rw [Obligation.parameterValue?, Option.map_eq_none_iff, List.find?_eq_none] at found
      have absent := found (var, value) (List.mem_reverse.mpr paired)
      simp [isParameter] at absent
  | some otherValue =>
      rw [Obligation.parameterValue?, Option.map_eq_some_iff] at found
      obtain ⟨⟨other, _⟩, located, rfl⟩ := found
      have sameName : other.name = var.name := by
        have isFound := List.find?_some located
        simp only [Bool.and_eq_true, beq_iff_eq] at isFound
        exact isFound.2
      have otherPaired := List.mem_reverse.mp (List.mem_of_find?_eq_some located)
      refine ⟨_, rfl, ?_⟩
      rw [← sameName]
      exact List.forall₂_zip valued otherPaired

/-- The constants of the unknowns have the given values; all others are false or zero. -/
def assignment (obligation : Obligation) (values : List Value) : Smt.Assignment :=
  let env := Env.ofList ((obligation.unknowns.map fun var => Smt.symbol var.name).zip values)
  { bools := fun symbol =>
      match env.get? symbol with
      | some (.bool truth) => truth
      | _ => false
    ints := fun symbol =>
      match env.get? symbol with
      | some (.int number) => number.toInt
      | _ => 0 }

private theorem datum_assignment
    (distinct : (obligation.unknowns.map Variable.name).Nodup)
    {values : List Value} (sameLength : obligation.unknowns.length = values.length)
    {var : Variable} {value : Value} (paired : (var, value) ∈ obligation.unknowns.zip values)
    {datum : Smt.Datum} (isDatum : value.datum? = some datum) (ofSort : datum.sort = var.sort) :
    (obligation.assignment values).datum (Smt.symbol var.name) var.sort = datum := by
  have distinctSymbols : (obligation.unknowns.map fun var => Smt.symbol var.name).Nodup := by
    have mapped := distinct.map Smt.symbol_injective
    rwa [List.map_map] at mapped
  have found := Env.get?_ofList_zip distinctSymbols sameLength paired
  cases value with
  | none => cases isDatum
  | string _ => cases isDatum
  | bool truth =>
      cases isDatum
      rw [← ofSort]
      simp only [Smt.Datum.sort, Smt.Assignment.datum, assignment, found]
  | int number =>
      cases isDatum
      rw [← ofSort]
      simp only [Smt.Datum.sort, Smt.Assignment.datum, assignment, found]

/-- Every admissible list of values is that of some assignment of the constants. -/
theorem Admissible.valued_assignment
    (distinct : (obligation.unknowns.map Variable.name).Nodup)
    {values : List Value} (admissible : obligation.Admissible values) (place : String → Nat) :
    obligation.Valued (obligation.valuation place (obligation.assignment values)) values := by
  rw [Valued, List.forall₂_iff_zip]
  refine ⟨admissible.length_eq, ?_⟩
  intro var value paired
  obtain ⟨datum, isDatum, ofSort, _⟩ := List.forall₂_zip admissible paired
  rw [datum_unknown distinct (List.of_mem_zip paired).1, isDatum,
    datum_assignment distinct admissible.length_eq paired isDatum ofSort]

/-- What is enumerated is of the right sorts and within the constraints. -/
theorem admissible_of_mem_combinations
    (wellSorted : obligation.WellSorted)
    {limit : Nat} {domains : List (List Value)} (finite : obligation.domains limit = .ok domains)
    {values : List Value} (member : values ∈ combinations domains) :
    obligation.Admissible values := by
  refine forall₂_of_combination (lists_of_domainsFrom finite) ?_ member
  intro var unknown listed lists value isListed
  exact Variable.admits_of_mem_lists lists
    (fun known isKnown => wellSorted.sort_eq unknown isKnown) isListed

private theorem Admissible.admits
    (wellSorted : obligation.WellSorted) {values : List Value}
    (admissible : obligation.Admissible values)
    {valuation : Valuation} (valued : obligation.Valued valuation values)
    {name : String} {constraint : Constraint}
    (known : obligation.constraints.get? name = some constraint) :
    constraint.Admits (valuation.datum name) := by
  obtain ⟨var, unknown, rfl, _⟩ := wellSorted.constrained known
  obtain ⟨value, paired⟩ := exists_mem_zip admissible.length_eq unknown
  obtain ⟨datum, isDatum, _, admitted⟩ := List.forall₂_zip admissible paired
  have sameDatum := isDatum.symm.trans (List.forall₂_zip valued paired)
  rw [← Option.some.inj sameDatum]
  exact admitted constraint known

/-- Where every enumerated assignment is answered with a valid output, so is every valuation that
meets the constraints. -/
theorem choose_mem_of_accepts
    (distinct : (obligation.unknowns.map Variable.name).Nodup)
    {limit : Nat} {domains : List (List Value)} (finite : obligation.domains limit = .ok domains)
    (accepts : ∀ values ∈ combinations domains, obligation.Accepts values)
    {valuation : Valuation}
    (ofSort : ∀ var ∈ obligation.unknowns, (valuation.datum var.name).sort = var.sort)
    (admitted : ∀ name constraint, obligation.constraints.get? name = some constraint →
      constraint.Admits (valuation.datum name)) :
    obligation.decision.choose valuation ∈ obligation.validOutputs := by
  have enumerated : ∃ values ∈ combinations domains, obligation.Valued valuation values := by
    refine exists_combination (lists_of_domainsFrom finite) ?_
    intro var unknown listed lists
    exact Variable.exists_mem_lists_of_admits lists (ofSort var unknown) (admitted var.name)
  obtain ⟨values, member, valued⟩ := enumerated
  obtain ⟨output, evaluated, isValid⟩ := accepts values member
  rw [Decision.choose_of_eval (valued.completes distinct) obligation.decision evaluated]
  exact isValid

end Obligation

namespace Smt

/-- A finished check by enumeration agrees with the script. If it finds the obligation valid, no
assignment satisfies the script; if it finds a counterexample, some assignment does that gives the
parameters the values of the counterexample. -/
theorem script_agrees_with_enumeration
    {model : Model} {constraints : TextMap Constraint} {valid : List Literal}
    {obligation : Obligation} {timeout : Option Nat} {encoding : Encoding}
    (distinct : (model.parameters.map Parameter.name).Nodup)
    (words : ∀ name ∈ model.names, Lexeme.isWord name = true)
    (built : model.obligation constraints valid = .ok obligation)
    (encoded : encode obligation timeout = .ok encoding)
    (limit : Nat) (budget : Budget) :
    ∃ commands, commands? encoding.script.text = some commands ∧ WellFormed [] commands ∧
      (obligation.enumerate limit budget = .ok .valid →
        ∀ assignment, ¬ Satisfies assignment [] commands) ∧
      ∀ counterexample, obligation.enumerate limit budget = .ok (.invalid counterexample) →
        ∃ assignment, Satisfies assignment [] commands ∧
          ∀ parameter ∈ model.parameters, ∃ value sort,
            counterexample.values.get? parameter.name = some value ∧
            .declareConst (symbol parameter.name) sort ∈ commands ∧
            value.datum? = some (assignment.datum (symbol parameter.name) sort) := by
  have wellSorted := Model.obligation_wellSorted distinct built
  have unknownWords : ∀ var ∈ obligation.unknowns, Lexeme.isWord var.name = true :=
    fun var unknown => words var.name (Model.mem_names_of_unknown built unknown)
  obtain ⟨body, bodyEncoded, rfl⟩ := exists_ok_of_map_eq_ok encoded
  have satisfies (assignment : Assignment) :=
    (satisfies_commands_iff wellSorted bodyEncoded timeout assignment).trans
      (assertions_hold_iff wellSorted assignment)
  refine ⟨_, commands?_scriptOf wellSorted bodyEncoded unknownWords timeout,
    wellFormed_commands wellSorted bodyEncoded unknownWords timeout, ?_, ?_⟩
  · intro finished assignment satisfied
    obtain ⟨domains, finite, accepts⟩ := Obligation.accepts_of_enumerate_valid finished
    obtain ⟨admitted, notValid⟩ := (satisfies assignment).mp satisfied
    refine notValid
      (Obligation.choose_mem_of_accepts wellSorted.distinct finite accepts ?_ admitted)
    intro var unknown
    rw [Obligation.datum_unknown wellSorted.distinct unknown, Assignment.sort_datum]
  · intro counterexample finished
    obtain ⟨domains, finite, values, member, objects⟩ :=
      Obligation.exists_objection_of_enumerate_invalid finished
    obtain ⟨output, evaluated, notValid, rfl⟩ :=
      (Obligation.objection?_eq_invalid_iff obligation values counterexample).mp objects
    have admissible := Obligation.admissible_of_mem_combinations wellSorted finite member
    have valued := admissible.valued_assignment wellSorted.distinct (placeOf obligation)
    refine ⟨obligation.assignment values, (satisfies _).mpr ⟨?_, ?_⟩, ?_⟩
    · intro name constraint known
      exact admissible.admits wellSorted valued known
    · rw [Decision.choose_of_eval (valued.completes wellSorted.distinct) obligation.decision
        evaluated]
      exact notValid
    · intro parameter listed
      obtain ⟨var, unknown, sameName, isParameter⟩ :=
        Model.exists_unknown_of_parameter built listed
      obtain ⟨value, found, isDatum⟩ := valued.parameterValue? unknown isParameter
      rw [Obligation.datum_unknown wellSorted.distinct unknown] at isDatum
      rw [← sameName]
      refine ⟨value, var.sort, ?_, ?_, isDatum⟩
      · rw [Obligation.get?_counterexample, found]
      · exact declareConst_mem_commands timeout (mem_declaredBy_unknown unknown)

/-- The first rule depends on a condition text, but only for minors. -/
def turnstile : Model where
  functionName := "turnstile"
  parameters := [⟨"age", .untyped⟩, ⟨"member", .boolean⟩]
  rules :=
    [⟨.junction .and [.verbatim "(day)", .comparison "age" .lt (.int 18)],
        .value (.string "ask")⟩,
      ⟨.junction .or [.var "member", .var "staff"], .value (.string "open")⟩,
      ⟨.literal true, .value (.string "closed")⟩]

/-- Adults only. -/
def turnstileObligation (valid : List Literal) : Obligation where
  functionName := "turnstile"
  unknowns := [⟨"age", .int, true⟩, ⟨"member", .bool, true⟩, ⟨"staff", .bool, false⟩]
  decision := .ofRules turnstile.rules
  constraints := .ofList [("age", .range (some 18) (some 20))]
  validOutputs := firstOccurrences valid

/-- Adults are let in or not whatever the day, and one who is neither a member nor staff is not. -/
theorem script_agrees_with_enumeration_turnstile :
    (∃ encoding commands,
      encode (turnstileObligation [.value (.string "open"), .value (.string "closed")]) none =
        .ok encoding ∧
      commands? encoding.script.text = some commands ∧
      ∀ assignment, ¬ Satisfies assignment [] commands) ∧
    ∃ encoding commands assignment,
      encode (turnstileObligation [.value (.string "open")]) none = .ok encoding ∧
      commands? encoding.script.text = some commands ∧
      Satisfies assignment [] commands ∧
      assignment.ints (symbol "age") = 18 ∧ assignment.bools (symbol "member") = false := by
  have built (valid : List Literal) :
      turnstile.obligation (.ofList [("age", .range (some 18) (some 20))]) valid =
        .ok (turnstileObligation valid) := rfl
  constructor
  · obtain ⟨encoding, encoded⟩ : ∃ encoding,
        encode (turnstileObligation [.value (.string "open"), .value (.string "closed")]) none =
          .ok encoding := ⟨_, rfl⟩
    obtain ⟨commands, parsed, _, unsatisfiable, _⟩ :=
      script_agrees_with_enumeration (by decide) (by decide) (built _) encoded 100 ⟨none, false⟩
    exact ⟨encoding, commands, encoded, parsed, unsatisfiable (by decide)⟩
  · obtain ⟨encoding, encoded⟩ : ∃ encoding,
        encode (turnstileObligation [.value (.string "open")]) none = .ok encoding := ⟨_, rfl⟩
    obtain ⟨commands, parsed, _, _, satisfiable⟩ :=
      script_agrees_with_enumeration (by decide) (by decide) (built _) encoded 100 ⟨none, false⟩
    obtain ⟨assignment, satisfied, agrees⟩ :=
      satisfiable ⟨.ofList [("age", .int 18), ("member", .bool false)]⟩ (by decide)
    refine ⟨encoding, commands, assignment, encoded, parsed, satisfied, ?_, ?_⟩
    · obtain ⟨value, sort, found, _, isDatum⟩ := agrees ⟨"age", .untyped⟩ (by decide)
      cases found
      cases sort with
      | bool => cases isDatum
      | int => exact (Datum.int.inj (Option.some.inj isDatum)).symm
    · obtain ⟨value, sort, found, _, isDatum⟩ := agrees ⟨"member", .boolean⟩ (by decide)
      cases found
      cases sort with
      | bool => exact (Datum.bool.inj (Option.some.inj isDatum)).symm
      | int => cases isDatum

end Smt

end Rulebook
