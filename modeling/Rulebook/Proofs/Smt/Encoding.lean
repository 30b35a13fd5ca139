import Rulebook.Proofs.Obligation
import Rulebook.Proofs.Smt.Rendering
import Rulebook.Proofs.Smt.Terms

/-!
# Encoded obligations

The script of an obligation is read as well formed commands, and an assignment of its constants
satisfies them exactly if it meets the constraints and makes the decision yield an invalid output.
-/

namespace Rulebook

namespace Obligation

/-- The sort of an unknown; other names count as numbers. -/
def sortOf (obligation : Obligation) (name : String) : ValueSort :=
  ((obligation.unknowns.map fun var => (var.name, var.sort)).lookup name).getD .int

/-- What an assignment of the constants says about names and condition texts, where `place`
numbers the texts. -/
def valuation (obligation : Obligation) (place : String → Nat) (assignment : Smt.Assignment) :
    Valuation where
  datum name := assignment.datum (Smt.symbol name) (obligation.sortOf name)
  verbatim text := assignment.bools (Smt.verbatimSymbol (place text))

theorem datum_unknown
    {obligation : Obligation} (distinct : (obligation.unknowns.map Variable.name).Nodup)
    {var : Variable} (unknown : var ∈ obligation.unknowns)
    (place : String → Nat) (assignment : Smt.Assignment) :
    (obligation.valuation place assignment).datum var.name =
      assignment.datum (Smt.symbol var.name) var.sort := by
  have found : (obligation.unknowns.map fun var => (var.name, var.sort)).lookup var.name =
      some var.sort := by
    apply TextMap.lookup_of_mem
    · simpa [Function.comp_def] using distinct
    · exact List.mem_map.mpr ⟨var, unknown, rfl⟩
  have sorted : obligation.sortOf var.name = var.sort := by
    rw [sortOf, found, Option.getD_some]
  exact congrArg (assignment.datum _) sorted

end Obligation

namespace Smt

section Declared

variable {obligation : Obligation}

theorem mem_declaredBy_unknown {var : Variable} (unknown : var ∈ obligation.unknowns) :
    (symbol var.name, var.sort) ∈ declaredBy obligation :=
  List.mem_append_left _ (List.mem_map.mpr ⟨var, unknown, rfl⟩)

theorem mem_declaredBy_verbatim {text : String} (used : text ∈ verbatimsOf obligation.decision) :
    (verbatimSymbol ((verbatimsOf obligation.decision).idxOf text), .bool) ∈
      declaredBy obligation := by
  refine List.mem_append_right _ (List.mem_map.mpr ⟨(text, _), ?_, rfl⟩)
  rw [List.mem_zipIdx_iff_getElem?]
  exact List.getElem?_idxOf used

private theorem mem_declaredBy {entry : String × ValueSort}
    (member : entry ∈ declaredBy obligation) :
    (∃ var ∈ obligation.unknowns, entry = (symbol var.name, var.sort)) ∨
      ∃ index, entry = (verbatimSymbol index, .bool) := by
  rcases List.mem_append.mp member with unknown | verbatim
  · obtain ⟨var, isUnknown, rfl⟩ := List.mem_map.mp unknown
    exact .inl ⟨var, isUnknown, rfl⟩
  · obtain ⟨⟨_, index⟩, _, rfl⟩ := List.mem_map.mp verbatim
    exact .inr ⟨index, rfl⟩

/-- No constant is declared twice, as the two kinds of symbols differ. -/
theorem declaredBy_nodup (distinct : (obligation.unknowns.map Variable.name).Nodup) :
    ((declaredBy obligation).map Prod.fst).Nodup := by
  have names : (declaredBy obligation).map Prod.fst =
      (obligation.unknowns.map Variable.name).map symbol ++
        ((verbatimsOf obligation.decision).zipIdx.map Prod.snd).map verbatimSymbol := by
    rw [declaredBy, List.map_append, List.map_map, List.map_map, List.map_map, List.map_map]
    rfl
  have indices : ((verbatimsOf obligation.decision).zipIdx.map Prod.snd).Nodup := by
    rw [List.zipIdx_map_snd]
    exact List.nodup_range'
  rw [names]
  refine (distinct.map symbol_injective).append (indices.map verbatimSymbol_injective) ?_
  intro text isName isVerbatim
  obtain ⟨name, _, rfl⟩ := List.mem_map.mp isName
  obtain ⟨index, _, same⟩ := List.mem_map.mp isVerbatim
  exact symbol_ne_verbatimSymbol name index same.symm

theorem lookup_declaredBy
    (distinct : (obligation.unknowns.map Variable.name).Nodup)
    {text : String} {sort : ValueSort} (member : (text, sort) ∈ declaredBy obligation) :
    (declaredBy obligation).reverse.lookup text = some sort := by
  apply TextMap.lookup_of_mem
  · rw [List.map_reverse, List.nodup_reverse]
    exact declaredBy_nodup distinct
  · exact List.mem_reverse.mpr member

private theorem lookup_declaredBy_decision :
    (declaredBy obligation).reverse.lookup "decision" = none := by
  rw [List.lookup_eq_none_iff]
  intro entry member
  rcases mem_declaredBy (List.mem_reverse.mp member) with ⟨var, _, rfl⟩ | ⟨index, rfl⟩
  · simpa using (symbol_ne_decision var.name).symm
  · simpa using (verbatimSymbol_ne_decision index).symm

theorem declaredBy_isSymbol
    (words : ∀ var ∈ obligation.unknowns, Lexeme.isWord var.name = true) :
    ∀ entry ∈ declaredBy obligation, IsSymbol entry.1 := by
  intro entry member
  rcases mem_declaredBy member with ⟨var, unknown, rfl⟩ | ⟨index, rfl⟩
  · exact isSymbol_symbol (words var unknown)
  · exact isSymbol_verbatimSymbol index

end Declared

section Decided

variable {obligation : Obligation}

/-- The number of a condition text. -/
def placeOf (obligation : Obligation) (text : String) : Nat :=
  (verbatimsOf obligation.decision).idxOf text

/-- The constants of an obligation give its scope the values of the valuation. -/
theorem scopeOf_interpreted
    (distinct : (obligation.unknowns.map Variable.name).Nodup) (assignment : Assignment) :
    (scopeOf obligation).Interpreted (obligation.valuation (placeOf obligation) assignment)
      (assignment.interpret (declaredBy obligation).reverse) where
  ofName := by
    intro name sort known
    change (TextMap.ofList _).get? name = some sort at known
    rw [TextMap.get?_ofList] at known
    have listed := List.mem_reverse.mp (TextMap.mem_of_lookup known)
    obtain ⟨var, unknown, same⟩ := List.mem_map.mp listed
    cases same
    rw [Obligation.datum_unknown distinct unknown, Assignment.sort_datum,
      Assignment.lookup_interpret, lookup_declaredBy distinct (mem_declaredBy_unknown unknown)]
    exact ⟨rfl, rfl⟩
  ofVerbatim := by
    intro text used
    rw [Assignment.lookup_interpret]
    exact congrArg (Option.map (assignment.datum _))
      (lookup_declaredBy distinct (mem_declaredBy_verbatim used))

theorem mem_verbatimsOf
    {decision : Decision} {condition : Condition} {text : String}
    (listed : condition ∈ decision.conditions) (kept : text ∈ condition.verbatimTexts) :
    text ∈ verbatimsOf decision := by
  rw [verbatimsOf, mem_firstOccurrences]
  exact List.mem_flatMap.mpr ⟨condition, listed, kept⟩

private theorem mem_verbatimTexts {condition : Condition} {text : String}
    (node : .verbatim text ∈ condition.nodes) : text ∈ condition.verbatimTexts := by
  rw [Condition.verbatimTexts, mem_firstOccurrences, List.mem_filterMap]
  exact ⟨_, node, rfl⟩

private theorem choose_mem_outputsOf (obligation : Obligation) (valuation : Valuation) :
    obligation.decision.choose valuation ∈ outputsOf obligation := by
  have isResult : ∀ decision : Decision, decision.choose valuation ∈ decision.results := by
    intro decision
    induction decision with
    | leaf result => exact List.mem_singleton_self _
    | branch condition result otherwise inductionHypothesis =>
        rw [Decision.choose, Decision.results]
        split
        · exact List.mem_cons_self
        · exact List.mem_cons_of_mem _ inductionHypothesis
  rw [outputsOf, mem_firstOccurrences, List.mem_append, Decision.outputs, mem_firstOccurrences]
  exact .inl (isResult obligation.decision)

end Decided

/-! ## The assertions -/

section Asserted

variable {obligation : Obligation} {valuation : Valuation} {interpretation : Interpretation}

theorem mem_constraintTerms {term : Sexp} :
    term ∈ constraintTerms obligation ↔
      ∃ name constraint, obligation.constraints.get? name = some constraint ∧
        constraintTerm? name constraint = some term := by
  simp only [constraintTerms, List.mem_filterMap, Prod.exists, TextMap.mem_entries_iff]

variable
  (constrained : ∀ {name : String} {constraint : Constraint},
    obligation.constraints.get? name = some constraint →
      (valuation.datum name).sort = constraint.sort ∧
        Denotes interpretation (.atom (symbol name)) (valuation.datum name))

include constrained

private theorem constraintTerms_sorted :
    ∀ term ∈ constraintTerms obligation, sort? interpretation.signature term = some .bool := by
  intro term member
  obtain ⟨name, constraint, known, asserted⟩ := mem_constraintTerms.mp member
  obtain ⟨sorted, denotes⟩ := constrained known
  obtain ⟨value, termDenotes, _⟩ := denotes_constraintTerm sorted denotes asserted
  exact termDenotes.sorted

/-- The assertions for the constraints are true where the constraints admit the values. -/
theorem constraintTerms_hold_iff :
    (∀ term ∈ constraintTerms obligation, value? interpretation term = some (.bool true)) ↔
      ∀ name constraint, obligation.constraints.get? name = some constraint →
        constraint.Admits (valuation.datum name) := by
  constructor
  · intro hold name constraint known
    obtain ⟨sorted, denotes⟩ := constrained known
    cases asserted : constraintTerm? name constraint with
    | none => exact admits_of_constraintTerm?_eq_none sorted asserted
    | some term =>
        obtain ⟨value, termDenotes, admits⟩ := denotes_constraintTerm sorted denotes asserted
        have holds := hold term (mem_constraintTerms.mpr ⟨name, constraint, known, asserted⟩)
        rw [termDenotes.valued] at holds
        cases holds
        exact admits.mp rfl
  · intro admitted term member
    obtain ⟨name, constraint, known, asserted⟩ := mem_constraintTerms.mp member
    obtain ⟨sorted, denotes⟩ := constrained known
    obtain ⟨value, termDenotes, admits⟩ := denotes_constraintTerm sorted denotes asserted
    rw [termDenotes.valued, admits.mpr (admitted name constraint known)]

end Asserted

/-! ## The script -/

section Encoded

variable {obligation : Obligation} {body : Sexp}

/-- The constants of an obligation as values of its names and texts. -/
abbrev valuationOf (obligation : Obligation) (assignment : Assignment) : Valuation :=
  obligation.valuation (placeOf obligation) assignment

/-- The place of the decision's result in the table of outputs. -/
def resultOf (obligation : Obligation) (assignment : Assignment) : Nat :=
  (outputsOf obligation).idxOf (obligation.decision.choose (valuationOf obligation assignment))

/-- The symbols after the definition of the decision. -/
def knownSymbols (obligation : Obligation) : Signature :=
  ("decision", .int) :: (declaredBy obligation).reverse

/-- The values of these symbols. -/
def knownValues (obligation : Obligation) (assignment : Assignment) : Interpretation :=
  ("decision", .int (resultOf obligation assignment)) ::
    assignment.interpret (declaredBy obligation).reverse

private theorem signature_knownValues (assignment : Assignment) :
    (knownValues obligation assignment).signature = knownSymbols obligation :=
  congrArg (("decision", ValueSort.int) :: ·) (assignment.signature_interpret _)

private theorem denotes_goal (assignment : Assignment) :
    Denotes (knownValues obligation assignment)
      (negatedGoal (outputsOf obligation) obligation.validOutputs)
      (.bool (obligation.decision.choose (valuationOf obligation assignment) ∉
        obligation.validOutputs)) := by
  apply denotes_negatedGoal _ (choose_mem_outputsOf obligation _)
  refine denotes_atom rfl ?_
  rw [knownValues, TextMap.lookup_cons_eq_ite, if_pos rfl, resultOf]

/-- The commands that follow the declarations. -/
def goalCommands (obligation : Obligation) (body : Sexp) : List Command :=
  .defineConst "decision" .int body ::
    ((assertionsOf obligation).map .assert ++ .checkSat :: queriesOf obligation)

theorem commands_sectionsOf (timeout : Option Nat) :
    (sectionsOf obligation timeout body).commands =
      optionsOf timeout ++ .setLogic "QF_LIA" ::
        (declareAll (declaredBy obligation) ++ goalCommands obligation body) := by
  simp [Sections.commands, sectionsOf, goalCommands]

theorem declareConst_mem_commands
    (timeout : Option Nat) {entry : String × ValueSort} (member : entry ∈ declaredBy obligation) :
    .declareConst entry.1 entry.2 ∈ (sectionsOf obligation timeout body).commands := by
  rw [commands_sectionsOf]
  exact List.mem_append_right _
    (List.mem_cons_of_mem _ (List.mem_append_left _ (List.mem_map.mpr ⟨entry, member, rfl⟩)))

variable (wellSorted : obligation.WellSorted)

include wellSorted

private theorem denotes_constrained
    (assignment : Assignment) {name : String} {constraint : Constraint}
    (known : obligation.constraints.get? name = some constraint) :
    ((valuationOf obligation assignment).datum name).sort = constraint.sort ∧
      Denotes (knownValues obligation assignment) (.atom (symbol name))
        ((valuationOf obligation assignment).datum name) := by
  obtain ⟨var, unknown, rfl, sameSort⟩ := wellSorted.constrained known
  rw [Obligation.datum_unknown wellSorted.distinct unknown]
  refine ⟨by rw [Assignment.sort_datum, sameSort], denotes_atom (constant?_symbol _) ?_⟩
  rw [knownValues, TextMap.lookup_cons_eq_ite, if_neg (symbol_ne_decision _),
    Assignment.lookup_interpret,
    lookup_declaredBy wellSorted.distinct (mem_declaredBy_unknown unknown), Option.map_some]

/-- All assertions are truth values. Sorts do not depend on the values, so that any assignment shows
it. -/
theorem assertions_sorted :
    ∀ term ∈ assertionsOf obligation, sort? (knownSymbols obligation) term = some .bool := by
  have someAssignment : Assignment := ⟨fun _ => false, fun _ => 0⟩
  rw [← signature_knownValues someAssignment, assertionsOf, List.forall_mem_append,
    List.forall_mem_singleton]
  exact ⟨constraintTerms_sorted (denotes_constrained wellSorted someAssignment),
    (denotes_goal someAssignment).sorted⟩

/-- The assertions are true for the values within the constraints on which the decision has no valid
output. -/
theorem assertions_hold_iff (assignment : Assignment) :
    (∀ term ∈ assertionsOf obligation,
      value? (knownValues obligation assignment) term = some (.bool true)) ↔
      (∀ name constraint, obligation.constraints.get? name = some constraint →
        constraint.Admits ((valuationOf obligation assignment).datum name)) ∧
      obligation.decision.choose (valuationOf obligation assignment) ∉
        obligation.validOutputs := by
  rw [assertionsOf, List.forall_mem_append, List.forall_mem_singleton,
    constraintTerms_hold_iff (denotes_constrained wellSorted assignment),
    (denotes_goal assignment).valued]
  simp

private theorem wellFormed_queries :
    WellFormed (knownSymbols obligation) (queriesOf obligation) := by
  rw [queriesOf]
  split
  · trivial
  · rename_i nonempty
    refine ⟨by simpa using nonempty, ?_, trivial⟩
    intro term member
    obtain ⟨text, isSymbol, rfl⟩ := List.mem_map.mp member
    obtain ⟨var, isParameter, rfl⟩ := List.mem_map.mp isSymbol
    refine ⟨var.sort, ?_⟩
    rw [sort?, constant?_symbol, knownSymbols, TextMap.lookup_cons_eq_ite,
      if_neg (symbol_ne_decision _)]
    exact lookup_declaredBy wellSorted.distinct
      (mem_declaredBy_unknown (List.mem_of_mem_filter isParameter))

variable
  (encoded : (scopeOf obligation).decision (outputsOf obligation) obligation.decision = .ok body)

include encoded

theorem denotes_body (assignment : Assignment) :
    Denotes (assignment.interpret (declaredBy obligation).reverse) body
      (.int (resultOf obligation assignment)) :=
  Scope.denotes_decision (scopeOf_interpreted wellSorted.distinct assignment) _ _
    (fun _ listed _ node => mem_verbatimsOf listed (mem_verbatimTexts node)) encoded

theorem body_sorted : sort? (declaredBy obligation).reverse body = some .int := by
  have someAssignment : Assignment := ⟨fun _ => false, fun _ => 0⟩
  have sorted := (denotes_body wellSorted encoded someAssignment).sorted
  rwa [Assignment.signature_interpret] at sorted

/-- Behind the declarations, only the assertions matter. -/
theorem satisfies_goalCommands_iff (assignment : Assignment) :
    Satisfies assignment (assignment.interpret (declaredBy obligation).reverse)
        (goalCommands obligation body) ↔
      ∀ term ∈ assertionsOf obligation,
        value? (knownValues obligation assignment) term = some (.bool true) := by
  have queriesHold : Satisfies assignment (knownValues obligation assignment)
      (.checkSat :: queriesOf obligation) := by
    rw [Satisfies, queriesOf]
    split <;> trivial
  rw [goalCommands, Satisfies, (denotes_body wellSorted encoded assignment).valued]
  simp only [Option.some.injEq, exists_eq_left']
  exact (satisfies_assertions assignment (knownValues obligation assignment) _ _).trans
    (and_iff_left queriesHold)

theorem satisfies_commands_iff (timeout : Option Nat) (assignment : Assignment) :
    Satisfies assignment [] (sectionsOf obligation timeout body).commands ↔
      ∀ term ∈ assertionsOf obligation,
        value? (knownValues obligation assignment) term = some (.bool true) := by
  have declared := satisfies_declarations assignment (declaredBy obligation) []
    (goalCommands obligation body)
  rw [List.append_nil, satisfies_goalCommands_iff wellSorted encoded] at declared
  rw [commands_sectionsOf]
  cases timeout with
  | none => exact declared
  | some _ => exact declared

variable (words : ∀ var ∈ obligation.unknowns, Lexeme.isWord var.name = true)

include words

/-- Options and declarations come first, then the decision is defined, and all terms are over these
symbols. -/
theorem wellFormed_commands (timeout : Option Nat) :
    WellFormed [] (sectionsOf obligation timeout body).commands := by
  have asserted : WellFormed (knownSymbols obligation)
      ((assertionsOf obligation).map .assert ++ .checkSat :: queriesOf obligation) :=
    wellFormed_assertions (assertions_sorted wellSorted) (wellFormed_queries wellSorted)
  have declared : WellFormed []
      (declareAll (declaredBy obligation) ++ goalCommands obligation body) := by
    refine wellFormed_declarations (declaredBy_isSymbol words)
      (declaredBy_nodup wellSorted.distinct) (fun _ _ => rfl) ?_
    rw [List.append_nil]
    exact ⟨isSymbol_decision, lookup_declaredBy_decision, body_sorted wellSorted encoded, asserted⟩
  rw [commands_sectionsOf]
  cases timeout with
  | none => exact declared
  | some _ => exact declared

theorem commands?_scriptOf (timeout : Option Nat) :
    commands? (scriptOf obligation timeout body).text =
      some (sectionsOf obligation timeout body).commands := by
  have declaredBare : ∀ entry ∈ (declaredBy obligation).reverse, Sexp.BareAtom entry.1 :=
    fun entry member => (declaredBy_isSymbol words entry (List.mem_reverse.mp member)).bareAtom
  have knownBare : ∀ entry ∈ knownSymbols obligation, Sexp.BareAtom entry.1 :=
    List.forall_mem_cons.mpr ⟨isSymbol_decision.bareAtom, declaredBare⟩
  apply Renders.commands?_text
  apply renders_scriptOf
  · intro var unknown
    exact (isSymbol_symbol (words var unknown)).bareAtom
  · exact bare_of_sort? declaredBare body (body_sorted wellSorted encoded)
  · intro term member
    exact bare_of_sort? knownBare term (assertions_sorted wellSorted term member)

end Encoded

/-- The script of an encoded obligation is read, without its comments, as well formed commands.
They declare each unknown and a constant of its own for each condition text, and the assignments
that satisfy them are those that meet the constraints and make the decision yield an invalid
output. -/
theorem encode_exact
    {model : Model} {constraints : TextMap Constraint} {valid : List Literal}
    {obligation : Obligation} {timeout : Option Nat} {encoding : Encoding}
    (distinct : (model.parameters.map Parameter.name).Nodup)
    (words : ∀ name ∈ model.names, Lexeme.isWord name = true)
    (built : model.obligation constraints valid = .ok obligation)
    (encoded : encode obligation timeout = .ok encoding) :
    ∃ (commands : List Command) (place : String → Nat),
      commands? encoding.script.text = some commands ∧
      WellFormed [] commands ∧
      (∀ var ∈ obligation.unknowns, .declareConst (symbol var.name) var.sort ∈ commands) ∧
      (∀ condition ∈ obligation.decision.conditions, ∀ text ∈ condition.verbatimTexts,
        .declareConst (verbatimSymbol (place text)) .bool ∈ commands ∧
          ∀ other, place text = place other → text = other) ∧
      ∀ assignment,
        Satisfies assignment [] commands ↔
          (∀ name constraint, obligation.constraints.get? name = some constraint →
            constraint.Admits ((obligation.valuation place assignment).datum name)) ∧
          obligation.decision.choose (obligation.valuation place assignment) ∉
            obligation.validOutputs := by
  have wellSorted := Model.obligation_wellSorted distinct built
  have unknownWords : ∀ var ∈ obligation.unknowns, Lexeme.isWord var.name = true :=
    fun var unknown => words var.name (Model.mem_names_of_unknown built unknown)
  obtain ⟨body, bodyEncoded, rfl⟩ := exists_ok_of_map_eq_ok encoded
  refine ⟨_, placeOf obligation, commands?_scriptOf wellSorted bodyEncoded unknownWords timeout,
    wellFormed_commands wellSorted bodyEncoded unknownWords timeout, ?_, ?_, ?_⟩
  · intro var unknown
    exact declareConst_mem_commands timeout (mem_declaredBy_unknown unknown)
  · intro condition listed text kept
    have used := mem_verbatimsOf listed kept
    exact ⟨declareConst_mem_commands timeout (mem_declaredBy_verbatim used),
      fun other => (List.idxOf_inj used).mp⟩
  · intro assignment
    exact (satisfies_commands_iff wellSorted bodyEncoded timeout assignment).trans
      (assertions_hold_iff wellSorted assignment)

/-- Both rules depend on the same condition text. -/
def admission : Model where
  functionName := "admission"
  parameters := [⟨"age", .untyped⟩, ⟨"member", .boolean⟩]
  rules :=
    [⟨.junction .and [.verbatim "(day)", .comparison "age" .lt (.int 18)],
        .value (.string "minor")⟩,
      ⟨.junction .or [.var "member", .not (.verbatim "(day)")], .value (.string "open")⟩]

def admissionObligation : Obligation where
  functionName := "admission"
  unknowns := [⟨"age", .int, true⟩, ⟨"member", .bool, true⟩]
  decision := .ofRules admission.rules
  constraints := .ofList [("age", .range (some (-5)) none)]
  validOutputs := [.value (.string "open")]

theorem encode_exact_admission :
    ∃ encoding commands,
      encode admissionObligation (some 500) = .ok encoding ∧
      commands? encoding.script.text = some commands ∧
      WellFormed [] commands ∧
      Satisfies ⟨fun _ => true, fun _ => 3⟩ [] commands ∧
      ¬ Satisfies ⟨fun _ => true, fun _ => 30⟩ [] commands := by
  have built : admission.obligation (.ofList [("age", .range (some (-5)) none)])
      [.value (.string "open")] = .ok admissionObligation := rfl
  obtain ⟨encoding, encoded⟩ : ∃ encoding, encode admissionObligation (some 500) = .ok encoding :=
    ⟨_, rfl⟩
  obtain ⟨commands, place, parsed, wellFormed, _, _, satisfies⟩ :=
    encode_exact (by decide) (by decide) built encoded
  refine ⟨encoding, commands, encoded, parsed, wellFormed, (satisfies _).mpr ⟨?_, ?_⟩, ?_⟩
  · intro name constraint known
    have entry := (TextMap.mem_entries_iff _ _ _).mpr known
    obtain ⟨rfl, rfl⟩ := Prod.mk.inj (List.mem_singleton.mp entry)
    refine ⟨fun bound isBound => ?_, fun bound isBound => by cases isBound⟩
    cases isBound
    decide
  · have result : admissionObligation.decision.choose
        (admissionObligation.valuation place ⟨fun _ => true, fun _ => 3⟩) =
          .value (.string "minor") := rfl
    rw [result]
    decide
  · intro satisfied
    exact ((satisfies _).mp satisfied).2 List.mem_cons_self

end Smt

end Rulebook
