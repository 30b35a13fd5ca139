import Rulebook.Smt.Encoding
import Rulebook.Proofs.Decimal
import Rulebook.Proofs.Evaluation
import Rulebook.Proofs.Smt.Valuation
import Rulebook.Proofs.TextMap
import Mathlib.Data.Int.Order.Basic
import Mathlib.Data.List.Forall2

/-!
# What encoded terms denote

A term denotes a value under an interpretation if it is well sorted over the interpreted symbols
and has this value, which then is of its sort. The terms of conditions and decisions denote what
the conditions and decisions come to under a valuation, wherever the symbols are interpreted by
the values of their names.
-/

namespace Rulebook

/-- What a comparator asks for, in terms of the order of integers. -/
theorem Comparator.holds_compare (op : Comparator) (first second : Int) :
    op.holds (Ord.compare first second) =
      match op with
      | .lt => decide (first < second)
      | .le => decide (first ≤ second)
      | .gt => decide (second < first)
      | .ge => decide (second ≤ first)
      | .eq => decide (first = second)
      | .ne => !decide (first = second) := by
  rcases lt_trichotomy first second with less | rfl | greater
  · rw [compare_lt_iff_lt.mpr less]
    cases op <;> simp [holds, less, ne_of_lt less, le_of_lt less, lt_asymm less]
  · rw [compare_eq_iff_eq.mpr rfl]
    cases op <;> simp [holds]
  · rw [compare_gt_iff_gt.mpr greater]
    cases op <;> simp [holds, greater, ne_of_gt greater, le_of_lt greater, lt_asymm greater]

namespace Smt

theorem ne_of_head {text other : String} (different : text.toList.head? ≠ other.toList.head?) :
    text ≠ other := by
  rintro rfl
  exact different rfl

structure Denotes (interpretation : Interpretation) (term : Sexp) (datum : Datum) : Prop where
  sorted : sort? interpretation.signature term = some datum.sort
  valued : value? interpretation term = some datum

section Denotation

variable {interpretation : Interpretation}

private theorem sorts?_of_denotes {terms : List Sexp} {data : List Datum}
    (denotes : List.Forall₂ (Denotes interpretation) terms data) :
    sorts? interpretation.signature terms = some (data.map Datum.sort) := by
  induction denotes with
  | nil => rfl
  | cons first _ inductionHypothesis =>
      rw [sorts?, first.sorted, inductionHypothesis, List.map_cons]

private theorem values?_of_denotes {terms : List Sexp} {data : List Datum}
    (denotes : List.Forall₂ (Denotes interpretation) terms data) :
    values? interpretation terms = some data := by
  induction denotes with
  | nil => rfl
  | cons first _ inductionHypothesis => rw [values?, first.valued, inductionHypothesis]

/-- An application denotes what its function makes of the operands. -/
theorem denotes_apply
    {name : String} {operator : Operator} {terms : List Sexp} {data : List Datum} {datum : Datum}
    (named : Operator.ofName? name = some operator)
    (denotes : List.Forall₂ (Denotes interpretation) terms data)
    (sorted : operator.sort? (data.map Datum.sort) = some datum.sort)
    (valued : operator.value? data = some datum) :
    Denotes interpretation (.apply name terms) datum where
  sorted := by
    rw [Sexp.apply, sort?, named, sorts?_of_denotes denotes]
    exact sorted
  valued := by
    rw [Sexp.apply, value?, named, values?_of_denotes denotes]
    exact valued

theorem denotes_constant {text : String} {datum : Datum} (constant : constant? text = some datum) :
    Denotes interpretation (.atom text) datum where
  sorted := by rw [sort?, constant]
  valued := by rw [value?, constant]

@[simp]
theorem denotes_boolTerm (value : Bool) :
    Denotes interpretation (boolTerm value) (.bool value) := by
  cases value
  · exact denotes_constant rfl
  · exact denotes_constant rfl

private theorem toString_ne_of_head
    {n : Nat} {text : String} {c : Char} (head : text.toList.head? = some c)
    (notDigit : c.isDigit = false) : toString n ≠ text := by
  apply ne_of_head
  rw [head, Nat.toString_eq_repr, Nat.toList_repr]
  intro sameHead
  rw [Text.isDigit_of_mem_toDigits (List.mem_of_head? sameHead)] at notDigit
  cases notDigit

@[simp]
theorem numeral?_toString (n : Nat) : numeral? (toString n) = some n := by
  rw [numeral?, Nat.toString_eq_repr, Nat.toList_repr]
  rcases Nat.eq_zero_or_pos n with rfl | positive
  · rfl
  · have head := Text.head?_toDigits_ne_zero positive
    split
    · rename_i single
      rw [single] at head
      exact absurd rfl head
    · rename_i leading
      rw [leading] at head
      exact absurd rfl head
    · exact Text.natural?_toDigits n

@[simp]
theorem constant?_toString (n : Nat) : constant? (toString n) = some (.int n) := by
  rw [constant?, if_neg (toString_ne_of_head (c := 't') rfl rfl),
    if_neg (toString_ne_of_head (c := 'f') rfl rfl), numeral?_toString]
  rfl

@[simp]
theorem denotes_natTerm (n : Nat) : Denotes interpretation (natTerm n) (.int n) :=
  denotes_constant (constant?_toString n)

@[simp]
theorem denotes_intTerm (value : Int64) :
    Denotes interpretation (intTerm value) (.int value.toInt) := by
  have magnitude : Denotes interpretation (natTerm value.toInt.natAbs) (.int value.toInt.natAbs) :=
    denotes_natTerm _
  rw [intTerm]
  split
  · rename_i negative
    have same : value.toInt = -(value.toInt.natAbs : Int) := by omega
    refine denotes_apply rfl (.cons magnitude .nil) rfl ?_
    rw [Operator.value?, ← same]
  · have same : value.toInt = (value.toInt.natAbs : Int) := by omega
    rwa [← same] at magnitude

theorem denotes_notTerm {term : Sexp} {value : Bool}
    (denotes : Denotes interpretation term (.bool value)) :
    Denotes interpretation (notTerm term) (.bool !value) :=
  denotes_apply rfl (.cons denotes .nil) rfl rfl

/-- A junction of no parts or one has a simpler term, which denotes the same. -/
theorem denotes_junctionTerm
    (kind : Junction) {terms : List Sexp} {values : List Bool}
    (denotes : List.Forall₂ (Denotes interpretation) terms (values.map .bool)) :
    Denotes interpretation (junctionTerm kind terms) (.bool (kind.holds values)) := by
  match terms, values, denotes with
  | [], [], _ =>
      cases kind with
      | and => exact denotes_boolTerm true
      | or => exact denotes_boolTerm false
  | [term], [value], denotes =>
      have single : kind.holds [value] = value := by cases kind <;> simp [Junction.holds]
      rw [single]
      cases denotes with
      | cons first _ => exact first
  | first :: second :: rest, value :: other :: others, denotes =>
      have sorted : ∀ sort ∈ ((value :: other :: others).map Datum.bool).map Datum.sort,
          sort = ValueSort.bool := by
        simp [Datum.sort]
      have isTrue : (fun datum => decide (datum = Datum.bool true)) ∘ Datum.bool = id := by
        funext operand
        cases operand <;> rfl
      cases kind with
      | and =>
          refine denotes_apply rfl denotes (if_pos ⟨by simp, sorted⟩) ?_
          rw [Operator.value?, List.all_map, isTrue, Junction.holds]
      | or =>
          refine denotes_apply rfl denotes (if_pos ⟨by simp, sorted⟩) ?_
          rw [Operator.value?, List.any_map, isTrue, Junction.holds]

/-- Every comparator has a term, be it a negated equality. -/
theorem denotes_relationTerm
    (op : Comparator) {left right : Sexp} {first second : Int}
    (leftDenotes : Denotes interpretation left (.int first))
    (rightDenotes : Denotes interpretation right (.int second)) :
    Denotes interpretation (relationTerm op left right)
      (.bool (op.holds (Ord.compare first second))) := by
  have operands : List.Forall₂ (Denotes interpretation) [left, right] [.int first, .int second] :=
    .cons leftDenotes (.cons rightDenotes .nil)
  have equation : Denotes interpretation (.apply "=" [left, right])
      (.bool (Comparator.eq.holds (Ord.compare first second))) := by
    refine denotes_apply rfl operands rfl ?_
    simp [Operator.value?, Operator.chained, Comparator.holds_compare]
  cases op with
  | eq => exact equation
  | ne => exact denotes_notTerm equation
  | lt | le | gt | ge =>
      refine denotes_apply rfl operands rfl ?_
      simp [Operator.value?, Operator.chained, Operator.integers, Comparator.holds_compare]

theorem denotes_choose {condition first second : Sexp} {value : Bool} {left right : Int}
    (conditionDenotes : Denotes interpretation condition (.bool value))
    (firstDenotes : Denotes interpretation first (.int left))
    (secondDenotes : Denotes interpretation second (.int right)) :
    Denotes interpretation (.apply "ite" [condition, first, second])
      (.int (if value then left else right)) := by
  refine denotes_apply rfl
    (.cons conditionDenotes (.cons firstDenotes (.cons secondDenotes .nil))) rfl ?_
  cases value <;> rfl

private theorem lookup_signature (interpretation : Interpretation) (text : String) :
    interpretation.signature.lookup text = (interpretation.lookup text).map Datum.sort := by
  induction interpretation with
  | nil => rfl
  | cons entry rest inductionHypothesis =>
      have unfolded : Interpretation.signature (entry :: rest) =
          (entry.1, entry.2.sort) :: Interpretation.signature rest := rfl
      rw [unfolded, TextMap.lookup_cons_eq_ite, TextMap.lookup_cons_eq_ite, inductionHypothesis]
      split <;> rfl

theorem denotes_atom {text : String} {datum : Datum}
    (free : constant? text = none) (known : interpretation.lookup text = some datum) :
    Denotes interpretation (.atom text) datum where
  sorted := by rw [sort?, free, lookup_signature, known, Option.map_some]
  valued := by rw [value?, free, known]

/-- A text that does not start like a truth value or a number is none. -/
theorem constant?_eq_none_of_head
    {text : String} {c : Char} (head : text.toList.head? = some c)
    (notTrue : c ≠ 't') (notFalse : c ≠ 'f') (notDigit : Text.digitValue? 10 c = none) :
    constant? text = none := by
  obtain ⟨rest, split⟩ := List.head?_eq_some_iff.mp head
  have notNumeral : numeral? text = none := by
    rw [numeral?, split]
    split
    · rename_i zero
      cases zero
      cases notDigit
    · rfl
    · simp [Text.natural?, Text.naturalFrom, notDigit]
  have textNotTrue : text ≠ "true" := by
    apply ne_of_head
    rw [head]
    exact fun same => notTrue (Option.some.inj same)
  have textNotFalse : text ≠ "false" := by
    apply ne_of_head
    rw [head]
    exact fun same => notFalse (Option.some.inj same)
  rw [constant?, if_neg textNotTrue, if_neg textNotFalse, notNumeral, Option.map_none]

@[simp]
theorem constant?_symbol (name : String) : constant? (symbol name) = none :=
  constant?_eq_none_of_head (c := 'v') (by simp [symbol]) (by decide) (by decide) rfl

@[simp]
theorem constant?_verbatimSymbol (index : Nat) : constant? (verbatimSymbol index) = none :=
  constant?_eq_none_of_head (c := 'o') (by simp [verbatimSymbol]) (by decide) (by decide) rfl

end Denotation

/-! ## Conditions -/

/-- The interpretation gives the symbols of a scope the values of their names and texts. -/
structure Scope.Interpreted
    (scope : Scope) (valuation : Valuation) (interpretation : Interpretation) : Prop where
  ofName : ∀ {name : String} {sort : ValueSort}, scope.sorts.get? name = some sort →
    (valuation.datum name).sort = sort ∧
      interpretation.lookup (symbol name) = some (valuation.datum name)
  ofVerbatim : ∀ {text : String}, text ∈ scope.verbatims →
    interpretation.lookup (verbatimSymbol (scope.verbatims.idxOf text)) =
      some (.bool (valuation.verbatim text))

namespace Scope

variable {scope : Scope} {valuation : Valuation} {interpretation : Interpretation}

private theorem denotes_name
    (interpreted : scope.Interpreted valuation interpretation) {name : String} {sort : ValueSort}
    (sorted : scope.sort name = .ok sort) :
    (valuation.datum name).sort = sort ∧
      Denotes interpretation (.atom (symbol name)) (valuation.datum name) := by
  rw [Scope.sort] at sorted
  split at sorted
  · rename_i known
    cases sorted
    obtain ⟨hasSort, value⟩ := interpreted.ofName known
    exact ⟨hasSort, denotes_atom (constant?_symbol name) value⟩
  · cases sorted

private theorem denotes_numberTerm
    {name : String} {datum : Datum}
    (denotes : Denotes interpretation (.atom (symbol name)) datum) :
    Denotes interpretation (numberTerm name datum.sort) (.int datum.number) := by
  cases datum with
  | int value => exact denotes
  | bool value => exact denotes_choose denotes (denotes_natTerm 1) (denotes_natTerm 0)

/-- Two truth values are equated as such, which comes to the same as comparing their numbers. -/
theorem denotes_equated
    {left : Sexp} {first second : Bool}
    (denotes : Denotes interpretation left (.bool first)) :
    Denotes interpretation (.apply "=" [left, boolTerm second])
      (.bool (Comparator.eq.holds
        (Ord.compare (Datum.bool first).number (if second then 1 else 0 : Int64).toInt))) := by
  refine denotes_apply rfl (.cons denotes (.cons (denotes_boolTerm second) .nil)) rfl ?_
  cases first <;> cases second <;> rfl

/-- A comparison that has a term holds where the term is true. -/
theorem denotes_comparison
    (interpreted : scope.Interpreted valuation interpretation)
    {name : String} {op : Comparator} {constant : Value} {term : Sexp}
    (encoded : scope.comparison name op constant = .ok term) :
    Denotes interpretation term
      (.bool ((Condition.comparison name op constant).holds valuation)) := by
  rw [Scope.comparison] at encoded
  split at encoded
  · cases encoded
  · rename_i sort sorted
    obtain ⟨hasSort, denotes⟩ := denotes_name interpreted sorted
    rw [Condition.holds]
    generalize valuation.datum name = datum at hasSort denotes ⊢
    split at encoded
    · cases encoded
      cases datum with
      | bool value => exact denotes_equated denotes
      | int _ => cases hasSort
    · cases encoded
      cases datum with
      | bool value => exact denotes_notTerm (denotes_equated denotes)
      | int _ => cases hasSort
    · have number := denotes_numberTerm denotes
      rw [hasSort] at number
      cases numeric : constant.asInt? with
      | some value =>
          rw [numeric] at encoded
          cases encoded
          exact denotes_relationTerm op number (denotes_intTerm value)
      | none =>
          rw [numeric] at encoded
          cases op with
          | eq =>
              cases encoded
              exact denotes_boolTerm false
          | ne =>
              cases encoded
              exact denotes_boolTerm true
          | lt | le | gt | ge => cases encoded

/-- A truth value is its own test, and a number is tested against zero. -/
theorem denotes_var
    (interpreted : scope.Interpreted valuation interpretation) {name : String} {term : Sexp}
    (encoded : scope.condition (.var name) = .ok term) :
    Denotes interpretation term (.bool ((Condition.var name).holds valuation)) := by
  rw [Scope.condition] at encoded
  rw [Condition.holds]
  split at encoded
  · cases encoded
  all_goals
    rename_i sorted
    cases encoded
    obtain ⟨hasSort, denotes⟩ := denotes_name interpreted sorted
    generalize valuation.datum name = datum at hasSort denotes ⊢
  · cases datum with
    | bool value => exact denotes
    | int _ => cases hasSort
  · cases datum with
    | bool _ => cases hasSort
    | int value =>
        have tested := denotes_relationTerm .ne denotes (denotes_natTerm 0)
        rw [Comparator.holds_compare] at tested
        exact tested

mutual

/-- A condition that has a term holds where the term is true, by the structure of the condition. -/
theorem denotes_condition
    (interpreted : scope.Interpreted valuation interpretation)
    (condition : Condition) {term : Sexp}
    (covered : ∀ text, .verbatim text ∈ condition.nodes → text ∈ scope.verbatims)
    (encoded : scope.condition condition = .ok term) :
    Denotes interpretation term (.bool (condition.holds valuation)) := by
  cases condition with
  | literal value =>
      cases encoded
      exact denotes_boolTerm value
  | var name => exact denotes_var interpreted encoded
  | comparison name op constant => exact denotes_comparison interpreted encoded
  | junction kind parts =>
      rw [Scope.condition] at encoded
      obtain ⟨terms, partsEncoded, rfl⟩ := exists_ok_of_map_eq_ok encoded
      rw [Condition.holds]
      exact denotes_junctionTerm kind
        (denotes_conditions interpreted parts
          (fun text member => covered text (List.mem_cons_of_mem _ member)) partsEncoded)
  | not operand =>
      rw [Scope.condition] at encoded
      obtain ⟨inner, operandEncoded, rfl⟩ := exists_ok_of_map_eq_ok encoded
      rw [Condition.holds]
      exact denotes_notTerm
        (denotes_condition interpreted operand
          (fun text member => covered text (List.mem_cons_of_mem _ member)) operandEncoded)
  | verbatim text =>
      cases encoded
      exact denotes_atom (constant?_verbatimSymbol _)
        (interpreted.ofVerbatim (covered text List.mem_cons_self))

theorem denotes_conditions
    (interpreted : scope.Interpreted valuation interpretation)
    (parts : List Condition) {terms : List Sexp}
    (covered : ∀ text, .verbatim text ∈ Condition.nodesOf parts → text ∈ scope.verbatims)
    (encoded : scope.conditions parts = .ok terms) :
    List.Forall₂ (Denotes interpretation) terms
      ((Condition.holdsAll valuation parts).map .bool) := by
  cases parts with
  | nil =>
      cases encoded
      exact .nil
  | cons part rest =>
      rw [Scope.conditions] at encoded
      split at encoded
      · cases encoded
      · rename_i term partEncoded
        obtain ⟨others, restEncoded, rfl⟩ := exists_ok_of_map_eq_ok encoded
        rw [Condition.nodesOf] at covered
        exact .cons
          (denotes_condition interpreted part
            (fun text member => covered text (List.mem_append_left _ member)) partEncoded)
          (denotes_conditions interpreted rest
            (fun text member => covered text (List.mem_append_right _ member)) restEncoded)

end

/-- The term of a decision denotes the place of its result among the outputs. -/
theorem denotes_decision
    (interpreted : scope.Interpreted valuation interpretation)
    (outputs : List Literal) (decision : Decision) {term : Sexp}
    (covered : ∀ condition ∈ decision.conditions, ∀ text,
      .verbatim text ∈ condition.nodes → text ∈ scope.verbatims)
    (encoded : scope.decision outputs decision = .ok term) :
    Denotes interpretation term (.int (outputs.idxOf (decision.choose valuation))) := by
  induction decision generalizing term with
  | leaf result =>
      cases encoded
      exact denotes_natTerm _
  | branch condition result otherwise inductionHypothesis =>
      rw [Scope.decision] at encoded
      split at encoded
      · cases encoded
      · rename_i test tested
        obtain ⟨rest, restEncoded, rfl⟩ := exists_ok_of_map_eq_ok encoded
        have testDenotes := denotes_condition interpreted condition
          (covered condition List.mem_cons_self) tested
        have restDenotes := inductionHypothesis
          (fun other member => covered other (List.mem_cons_of_mem _ member)) restEncoded
        have chosen := denotes_choose testDenotes
          (denotes_natTerm (outputs.idxOf result)) restDenotes
        rw [Decision.choose]
        cases holds : condition.holds valuation with
        | true => simpa [holds] using chosen
        | false => simpa [holds] using chosen

end Scope

/-! ## Assertions -/

section Assertions

variable {interpretation : Interpretation}

private theorem denotes_relations
    (kind : Junction) (relations : List (Comparator × Int64)) {term : Sexp} {value : Int}
    (denotes : Denotes interpretation term (.int value)) :
    Denotes interpretation
      (junctionTerm kind (relations.map fun (op, bound) => relationTerm op term (intTerm bound)))
      (.bool (kind.holds
        (relations.map fun (op, bound) => op.holds (Ord.compare value bound.toInt)))) := by
  apply denotes_junctionTerm
  rw [List.map_map, List.forall₂_map_left_iff, List.forall₂_map_right_iff, List.forall₂_same]
  intro relation _
  exact denotes_relationTerm relation.1 denotes (denotes_intTerm relation.2)

theorem admits_of_constraintTerm?_eq_none
    {name : String} {constraint : Constraint} {datum : Datum}
    (sorted : datum.sort = constraint.sort) (nothing : constraintTerm? name constraint = none) :
    constraint.Admits datum := by
  cases constraint with
  | boolean =>
      cases datum with
      | bool _ => trivial
      | int _ => cases sorted
  | range min max =>
      cases datum with
      | bool _ => cases sorted
      | int value => cases min <;> cases max <;> simp_all [constraintTerm?, Constraint.Admits]
  | oneOf values => cases nothing

/-- The term of a constraint is true for the values that the constraint admits. -/
theorem denotes_constraintTerm
    {name : String} {constraint : Constraint} {datum : Datum} {term : Sexp}
    (sorted : datum.sort = constraint.sort)
    (denotes : Denotes interpretation (.atom (symbol name)) datum)
    (asserted : constraintTerm? name constraint = some term) :
    ∃ value, Denotes interpretation term (.bool value) ∧
      (value = true ↔ constraint.Admits datum) := by
  cases constraint with
  | boolean => cases asserted
  | range min max =>
      cases datum with
      | bool _ => cases sorted
      | int value =>
          have related := denotes_relations .and
            (min.toList.map (Comparator.ge, ·) ++ max.toList.map (Comparator.le, ·)) denotes
          rw [List.map_append, List.map_map, List.map_map] at related
          rw [constraintTerm?] at asserted
          split at asserted
          · cases asserted
          · cases asserted
            refine ⟨_, related, ?_⟩
            cases min <;> cases max <;>
              simp [Junction.holds, Comparator.holds_compare, Constraint.Admits]
  | oneOf values =>
      cases datum with
      | bool _ => cases sorted
      | int value =>
          have related := denotes_relations .or (values.map (Comparator.eq, ·)) denotes
          rw [List.map_map] at related
          cases asserted
          refine ⟨_, related, ?_⟩
          simp [Junction.holds, Comparator.holds_compare, Constraint.Admits]

/-- The goal is true where the result is none of the valid outputs. -/
theorem denotes_negatedGoal
    {outputs : List Literal} (valid : List Literal) {result : Literal}
    (listed : result ∈ outputs)
    (denotes : Denotes interpretation (.atom "decision") (.int (outputs.idxOf result))) :
    Denotes interpretation (negatedGoal outputs valid) (.bool (result ∉ valid)) := by
  have equations : List.Forall₂ (Denotes interpretation)
      (valid.map fun output =>
        .apply "=" [.atom "decision", natTerm (outputs.idxOf output)])
      ((valid.map fun output => decide (result = output)).map .bool) := by
    rw [List.map_map, List.forall₂_map_left_iff, List.forall₂_map_right_iff, List.forall₂_same]
    intro output _
    have equation := denotes_relationTerm .eq denotes (denotes_natTerm (outputs.idxOf output))
    have samePlace : ((outputs.idxOf result : Int) = outputs.idxOf output) ↔ result = output :=
      Int.ofNat_inj.trans (List.idxOf_inj listed)
    simp only [Comparator.holds_compare, samePlace] at equation
    exact equation
  have negated := denotes_notTerm (denotes_junctionTerm .or equations)
  have member : Junction.or.holds (valid.map fun output => decide (result = output)) =
      decide (result ∈ valid) := by
    rw [Bool.eq_iff_iff]
    simp [Junction.holds]
  rwa [member, ← decide_not] at negated

end Assertions

end Smt

end Rulebook
