import Rulebook.Proofs.Smt.Commands
import Rulebook.Proofs.Smt.Terms
import Rulebook.Token.Lexeme

/-!
# Scripts of obligations as commands

The symbols that an encoding introduces are proper symbols and different from each other. The
script of an obligation holds its commands section by section: options, the declared constants,
the decision, the assertions and a query.
-/

namespace Rulebook

/-- A word as the source writes it. -/
def Lexeme.isWord (text : String) : Bool :=
  match text.toList with
  | [] => false
  | first :: rest => startsWord first && rest.all continuesWord

namespace Smt

/-- What the symbols of an encoding start with. -/
def leads : List (List Char) := ["v_".toList, "opaque_".toList, "decision".toList]

private theorem reserved_apart : ∀ word ∈ reservedWords ++ theorySymbols, ∀ lead ∈ leads,
    ¬ lead <+: word.toList := by
  decide +kernel

/-- What starts like a symbol of an encoding is a symbol that may be introduced. -/
theorem isSymbol_of_lead
    {text : String} {lead rest : List Char}
    (listed : lead ∈ leads) (split : text.toList = lead ++ rest)
    (symbolic : ∀ c ∈ rest, isSymbolChar c = true) : IsSymbol text := by
  have leadFacts : ∀ lead ∈ leads, lead ≠ [] ∧ lead.head?.any Char.isDigit = false ∧
      lead.all isSymbolChar = true := by
    decide
  obtain ⟨nonempty, notDigit, leadSymbolic⟩ := leadFacts lead listed
  obtain ⟨first, more, rfl⟩ := List.exists_cons_of_ne_nil nonempty
  have notReserved : text ∉ reservedWords ++ theorySymbols := by
    intro member
    exact reserved_apart text member _ listed ⟨rest, split.symm⟩
  rw [List.mem_append, not_or] at notReserved
  refine ⟨⟨first, more ++ rest, split, notDigit⟩, ?_, notReserved⟩
  rw [split, List.forall_mem_append]
  exact ⟨List.all_eq_true.mp leadSymbolic, symbolic⟩

private theorem isSymbolChar_of_continuesWord {c : Char}
    (continues : Lexeme.continuesWord c = true) :
    isSymbolChar c = true := by
  rcases Bool.or_eq_true_iff.mp continues with alphanumeric | isBar
  · simp [isSymbolChar, alphanumeric]
  · rw [beq_iff_eq] at isBar
    rw [isBar]
    decide

theorem toList_symbol (name : String) : (symbol name).toList = "v_".toList ++ name.toList := by
  rw [symbol, String.toList_append]

theorem toList_verbatimSymbol (index : Nat) :
    (verbatimSymbol index).toList = "opaque_".toList ++ Nat.toDigits 10 index := by
  rw [verbatimSymbol, String.toList_append, Nat.toString_eq_repr, Nat.toList_repr]

theorem isSymbol_symbol {name : String} (word : Lexeme.isWord name = true) :
    IsSymbol (symbol name) := by
  refine isSymbol_of_lead (by simp [leads]) (toList_symbol name) ?_
  rw [Lexeme.isWord] at word
  split at word
  · cases word
  · rename_i first rest split
    obtain ⟨starts, continues⟩ := Bool.and_eq_true_iff.mp word
    have firstContinues : Lexeme.continuesWord first = true := by
      rcases Bool.or_eq_true_iff.mp starts with letter | bar
      · simp [Lexeme.continuesWord, Char.isAlphanum, letter]
      · simp [Lexeme.continuesWord, bar]
    rw [split, List.forall_mem_cons]
    exact ⟨isSymbolChar_of_continuesWord firstContinues,
      fun c member => isSymbolChar_of_continuesWord (List.all_eq_true.mp continues c member)⟩

@[simp]
theorem isSymbol_verbatimSymbol (index : Nat) : IsSymbol (verbatimSymbol index) := by
  refine isSymbol_of_lead (by simp [leads]) (toList_verbatimSymbol index) fun c member => ?_
  simp [isSymbolChar, Char.isAlphanum, Text.isDigit_of_mem_toDigits member]

@[simp]
theorem isSymbol_decision : IsSymbol "decision" := by
  refine isSymbol_of_lead (by simp [leads]) (List.append_nil _).symm ?_
  simp

theorem symbol_injective : Function.Injective symbol := by
  intro name other same
  have sameChars := congrArg String.toList same
  rw [toList_symbol, toList_symbol, List.append_cancel_left_eq] at sameChars
  exact String.toList_inj.mp sameChars

theorem verbatimSymbol_injective : Function.Injective verbatimSymbol := by
  intro index other same
  have sameChars := congrArg String.toList same
  rw [toList_verbatimSymbol, toList_verbatimSymbol, List.append_cancel_left_eq] at sameChars
  have sameNumber := congrArg (Text.natural? 10) sameChars
  rwa [Text.natural?_toDigits, Text.natural?_toDigits, Option.some.injEq] at sameNumber

theorem symbol_ne_verbatimSymbol (name : String) (index : Nat) :
    symbol name ≠ verbatimSymbol index :=
  ne_of_head (by simp [toList_symbol, toList_verbatimSymbol])

theorem symbol_ne_decision (name : String) : symbol name ≠ "decision" :=
  ne_of_head (by simp [toList_symbol])

theorem verbatimSymbol_ne_decision (index : Nat) : verbatimSymbol index ≠ "decision" :=
  ne_of_head (by simp [toList_verbatimSymbol])

/-- The constants that the script of an obligation declares, in order. -/
def declaredBy (obligation : Obligation) : Signature :=
  (obligation.unknowns.map fun var => (symbol var.name, var.sort)) ++
    (verbatimsOf obligation.decision).zipIdx.map fun (_, index) => (verbatimSymbol index, .bool)

def assertionsOf (obligation : Obligation) : List Sexp :=
  constraintTerms obligation ++ [negatedGoal (outputsOf obligation) obligation.validOutputs]

def queriesOf (obligation : Obligation) : List Command :=
  let symbols := obligation.parameters.map fun var => symbol var.name
  if symbols.isEmpty then [] else [.getValue (symbols.map .atom)]

def optionsOf (timeout : Option Nat) : List Command :=
  .setOption ":produce-models" "true" ::
    timeout.toList.map fun time => .setOption ":timeout" (toString time)

namespace Renders

variable {script : Script} {sections : Sections}

private theorem setTimeout (renders : Renders script sections) (timeout : Option Nat) :
    Renders (script.setTimeout timeout)
      { sections with
        options := sections.options ++
          timeout.toList.map fun time => .setOption ":timeout" (toString time) } := by
  cases timeout with
  | none => rwa [Option.toList_none, List.map_nil, List.append_nil]
  | some time =>
      refine renders.setOption (Command.bare_setOption _ _ (by decide) ?_)
      exact bareAtom_of_constant? (constant?_toString time)

private theorem declareUnknowns
    (renders : Renders script sections) {unknowns : List Variable}
    (bare : ∀ var ∈ unknowns, Sexp.BareAtom (symbol var.name)) :
    Renders (script.declareUnknowns unknowns)
      { sections with
        declarations := sections.declarations ++
          declareAll (unknowns.map fun var => (symbol var.name, var.sort)) } := by
  rw [declareAll, List.map_map, List.map_eq_flatMap]
  exact renders.foldl_declare fun var unknown _ _ current =>
    current.declareConst (Command.bare_declareConst _ _ (bare var unknown))

private theorem declareVerbatims
    (renders : Renders script sections) (texts : List String) :
    Renders (script.declareVerbatims texts)
      { sections with
        declarations := sections.declarations ++
          declareAll (texts.zipIdx.map fun (_, index) => (verbatimSymbol index, .bool)) } := by
  rw [declareAll, List.map_map, List.map_eq_flatMap]
  exact renders.foldl_declare fun _ _ _ _ current =>
    (current.comment _).declareConst
      (Command.bare_declareConst _ _ (isSymbol_verbatimSymbol _).bareAtom)

private theorem describeOutputs (renders : Renders script sections) (outputs : List Literal) :
    Renders (script.describeOutputs outputs) sections := by
  rw [Script.describeOutputs]
  induction outputs.zipIdx generalizing script with
  | nil => exact renders
  | cons _ _ inductionHypothesis => exact inductionHypothesis (renders.comment _)

end Renders

/-- The commands of the script of an obligation by section. -/
def sectionsOf (obligation : Obligation) (timeout : Option Nat) (body : Sexp) : Sections where
  options := optionsOf timeout
  declarations := declareAll (declaredBy obligation)
  definitions := [.defineConst "decision" .int body]
  assertions := (assertionsOf obligation).map .assert
  queries := queriesOf obligation

/-- The script of an obligation holds its commands, section by section. -/
theorem renders_scriptOf
    {obligation : Obligation} {body : Sexp} (timeout : Option Nat)
    (symbols : ∀ var ∈ obligation.unknowns, Sexp.BareAtom (symbol var.name))
    (bodyBare : body.Bare) (assertionsBare : ∀ term ∈ assertionsOf obligation, term.Bare) :
    Renders (scriptOf obligation timeout body) (sectionsOf obligation timeout body) := by
  have queriesBare : Sexp.BareAll
      ((obligation.parameters.map fun var => symbol var.name).map .atom) := by
    apply Sexp.bareAll_atoms
    intro text member
    obtain ⟨var, isParameter, rfl⟩ := List.mem_map.mp member
    exact symbols var (List.mem_of_mem_filter isParameter)
  have rendered := Renders.initial.setTimeout timeout |>.declareUnknowns symbols
    |>.declareVerbatims (verbatimsOf obligation.decision)
    |>.describeOutputs (outputsOf obligation)
    |>.defineFun (Command.bare_defineConst "decision" .int body isSymbol_decision.bareAtom bodyBare)
    |>.foldl_assert assertionsBare
    |>.getValue (Command.bare_getValue _ queriesBare)
  have declared : declareAll (declaredBy obligation) = _ ++ _ := List.map_append
  rw [sectionsOf, declared]
  exact rendered

end Smt

end Rulebook
