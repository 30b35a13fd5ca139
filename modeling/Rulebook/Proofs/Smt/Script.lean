import Rulebook.Proofs.Sexp
import Rulebook.Proofs.Smt.Semantics

/-!
# Commands in the text of a script

A script holds its commands on lines of their own, among empty lines and comments. Where no atom
needs quotes, the text of such lines is read as these commands again once its comments are
dropped.
-/

namespace Rulebook

namespace Text

theorem splitEvery_cons (mark c : Char) (rest : List Char) :
    ∃ part parts, splitEvery mark rest = part :: parts ∧
      splitEvery mark (c :: rest) =
        if c = mark then [] :: part :: parts else (c :: part) :: parts := by
  have nonempty : splitEvery mark rest ≠ [] := by
    cases rest with
    | nil => simp [splitEvery]
    | cons d others =>
        rw [splitEvery]
        split
        · simp
        · split <;> simp
  obtain ⟨part, parts, split⟩ := List.exists_cons_of_ne_nil nonempty
  refine ⟨part, parts, split, ?_⟩
  rw [splitEvery, split]

theorem splitEvery_append_mark
    {mark : Char} {word : List Char} (rest : List Char) (free : mark ∉ word) :
    splitEvery mark (word ++ mark :: rest) = word :: splitEvery mark rest := by
  induction word with
  | nil =>
      obtain ⟨part, parts, restSplit, split⟩ := splitEvery_cons mark mark rest
      rw [List.nil_append, split, if_pos rfl, restSplit]
  | cons c word inductionHypothesis =>
      have different : c ≠ mark := fun same => free (same ▸ List.mem_cons_self)
      have wordFree : mark ∉ word := fun member => free (List.mem_cons_of_mem _ member)
      obtain ⟨part, parts, restSplit, split⟩ := splitEvery_cons mark c (word ++ mark :: rest)
      rw [inductionHypothesis wordFree] at restSplit
      injection restSplit with samePart sameParts
      rw [List.cons_append, split, if_neg different, ← samePart, ← sameParts]

private theorem splitEvery_lines
    {mark : Char} {lines : List (List Char)} (free : ∀ line ∈ lines, mark ∉ line) :
    splitEvery mark (lines.flatMap (· ++ [mark])) = lines ++ [[]] := by
  induction lines with
  | nil => rfl
  | cons line rest inductionHypothesis =>
      have restFree : ∀ other ∈ rest, mark ∉ other :=
        fun other member => free other (List.mem_cons_of_mem _ member)
      rw [List.flatMap_cons, List.append_assoc, List.singleton_append,
        splitEvery_append_mark _ (free line List.mem_cons_self), inductionHypothesis restFree,
        List.cons_append]

private theorem intercalate_lines (mark : Char) (lines : List (List Char)) :
    List.intercalate [mark] (lines ++ [[]]) = lines.flatMap (· ++ [mark]) := by
  induction lines with
  | nil => rfl
  | cons line rest inductionHypothesis =>
      rw [List.flatMap_cons, ← inductionHypothesis]
      cases rest <;> simp

end Text

namespace Smt

namespace Command

def sexp : Command → Sexp
  | .setOption option value => .apply "set-option" [.atom option, .atom value]
  | .setLogic logic => .apply "set-logic" [.atom logic]
  | .declareConst symbol sort => .apply "declare-const" [.atom symbol, .atom (sortName sort)]
  | .defineConst symbol sort body =>
      .apply "define-fun" [.atom symbol, .list [], .atom (sortName sort), body]
  | .assert term => .apply "assert" [term]
  | .checkSat => .apply "check-sat" []
  | .getValue terms => .apply "get-value" [.list terms]

@[simp]
theorem sortOfName?_sortName (sort : ValueSort) : sortOfName? (sortName sort) = some sort := by
  cases sort <;> rfl

@[simp]
theorem bareAtom_sortName (sort : ValueSort) : Sexp.BareAtom (sortName sort) := by
  cases sort <;> decide

@[simp]
theorem ofSexp?_sexp (command : Command) : ofSexp? command.sexp = some command := by
  cases command <;> simp [sexp, Sexp.apply, ofSexp?]

private theorem mapM_ofSexp?_sexp (commands : List Command) :
    (commands.map sexp).mapM ofSexp? = some commands := by
  induction commands with
  | nil => rfl
  | cons command rest inductionHypothesis =>
      rw [List.map_cons, List.mapM_cons, ofSexp?_sexp, inductionHypothesis]
      rfl

theorem text_setOption (option value : String) :
    (setOption option value).sexp.text = "(set-option " ++ option ++ " " ++ value ++ ")" := by
  rw [← String.toList_inj]
  simp [sexp, Sexp.apply, Sexp.text, Sexp.texts]

private theorem text_declareConst (symbol : String) (sort : ValueSort) :
    (declareConst symbol sort).sexp.text =
      "(declare-const " ++ symbol ++ " " ++ sortName sort ++ ")" := by
  rw [← String.toList_inj]
  simp [sexp, Sexp.apply, Sexp.text, Sexp.texts]

private theorem text_defineConst (symbol : String) (sort : ValueSort) (body : Sexp) :
    (defineConst symbol sort body).sexp.text =
      "(define-fun " ++ symbol ++ " () " ++ sortName sort ++ " " ++ body.text ++ ")" := by
  rw [← String.toList_inj]
  simp [sexp, Sexp.apply, Sexp.text, Sexp.texts]

private theorem text_assert (term : Sexp) :
    (assert term).sexp.text = "(assert " ++ term.text ++ ")" := by
  rw [← String.toList_inj]
  simp [sexp, Sexp.apply, Sexp.text, Sexp.texts]

private theorem text_getValue (symbols : List String) :
    (getValue (symbols.map .atom)).sexp.text =
      "(get-value (" ++ " ".intercalate symbols ++ "))" := by
  rw [← String.toList_inj]
  simp [sexp, Sexp.apply, Sexp.text, Sexp.texts]

theorem bare_setOption (option value : String)
    (optionBare : Sexp.BareAtom option) (valueBare : Sexp.BareAtom value) :
    (setOption option value).sexp.Bare :=
  Sexp.bare_apply (by decide) ⟨optionBare, valueBare, trivial⟩

private theorem bare_setLogic (logic : String) (logicBare : Sexp.BareAtom logic) :
    (setLogic logic).sexp.Bare :=
  Sexp.bare_apply (by decide) ⟨logicBare, trivial⟩

theorem bare_declareConst (symbol : String) (sort : ValueSort)
    (symbolBare : Sexp.BareAtom symbol) : (declareConst symbol sort).sexp.Bare :=
  Sexp.bare_apply (by decide) ⟨symbolBare, bareAtom_sortName sort, trivial⟩

theorem bare_defineConst (symbol : String) (sort : ValueSort) (body : Sexp)
    (symbolBare : Sexp.BareAtom symbol) (bodyBare : body.Bare) :
    (defineConst symbol sort body).sexp.Bare :=
  Sexp.bare_apply (by decide) ⟨symbolBare, trivial, bareAtom_sortName sort, bodyBare, trivial⟩

private theorem bare_assert (term : Sexp) (termBare : term.Bare) : (assert term).sexp.Bare :=
  Sexp.bare_apply (by decide) ⟨termBare, trivial⟩

@[simp]
theorem bare_checkSat : checkSat.sexp.Bare := Sexp.bare_apply (by decide) trivial

theorem bare_getValue (terms : List Sexp) (termsBare : Sexp.BareAll terms) :
    (getValue terms).sexp.Bare :=
  Sexp.bare_apply (by decide) ⟨termsBare, trivial⟩

end Command

/-! ## Lines with commands -/

/-- The lines hold the commands, in order and each on a line of its own, among empty lines and
comments. -/
inductive Carries : List String → List Command → Prop
  | nil : Carries [] []
  | blank {lines : List String} {commands : List Command} :
      Carries lines commands →
      Carries ("" :: lines) commands
  | comment {text : String} {lines : List String} {commands : List Command} :
      '\n' ∉ text.toList →
      Carries lines commands →
      Carries (("; " ++ text) :: lines) commands
  | command {command : Command} {lines : List String} {commands : List Command} :
      command.sexp.Bare →
      Carries lines commands →
      Carries (command.sexp.text :: lines) (command :: commands)

namespace Carries

theorem single {command : Command} (bare : command.sexp.Bare) :
    Carries [command.sexp.text] [command] :=
  .command bare .nil

private theorem append
    {lines others : List String} {commands more : List Command}
    (first : Carries lines commands) (second : Carries others more) :
    Carries (lines ++ others) (commands ++ more) := by
  induction first with
  | nil => exact second
  | blank _ inductionHypothesis => exact .blank inductionHypothesis
  | comment oneLine _ inductionHypothesis => exact .comment oneLine inductionHypothesis
  | command bare _ inductionHypothesis => exact .command bare inductionHypothesis

private theorem paragraph {lines : List String} {commands : List Command}
    (carries : Carries lines commands) : Carries (Script.paragraph lines) commands := by
  rw [Script.paragraph]
  split
  · rename_i noLines
    rw [List.isEmpty_iff] at noLines
    exact noLines ▸ carries
  · exact .blank carries

private theorem newline_notMem {lines : List String} {commands : List Command}
    (carries : Carries lines commands) : ∀ line ∈ lines.map String.toList, '\n' ∉ line := by
  induction carries with
  | nil => simp
  | blank _ inductionHypothesis => simpa using inductionHypothesis
  | comment oneLine _ inductionHypothesis =>
      rw [List.map_cons, List.forall_mem_cons]
      exact ⟨by simpa using oneLine, inductionHypothesis⟩
  | command bare _ inductionHypothesis =>
      rw [List.map_cons, List.forall_mem_cons]
      exact ⟨Sexp.newline_notMem_text _ bare, inductionHypothesis⟩

@[simp]
theorem isComment_text (command : Command) : isComment command.sexp.text.toList = false := by
  have isList : ∃ items, command.sexp = .list items := by
    cases command <;> exact ⟨_, rfl⟩
  obtain ⟨items, shape⟩ := isList
  simp [shape, Sexp.text, isComment]

/-- What is left without the comments spells the commands. -/
theorem spells {lines : List String} {commands : List Command}
    (carries : Carries lines commands) :
    Sexp.Spells (Sexp.flatAll (commands.map Command.sexp))
      (((lines.map String.toList).filter (!isComment ·)).flatMap (· ++ ['\n'])) := by
  induction carries with
  | nil => exact .nil
  | blank _ inductionHypothesis => exact .blank (by decide) inductionHypothesis
  | comment _ _ inductionHypothesis =>
      rw [List.map_cons, List.filter_cons_of_neg (by simp [isComment])]
      exact inductionHypothesis
  | @command command lines _ bare _ inductionHypothesis =>
      have ended := Sexp.Spells.blank (c := '\n') (by decide) inductionHypothesis
      have line := Sexp.spells_text command.sexp bare (Sexp.delimited_newline _) ended
      simpa [Sexp.flatAll] using line

/-- The commands on the lines are read back from the text of the lines. -/
theorem commands?_text {lines : List String} {commands : List Command}
    (carries : Carries lines commands) :
    commands? (String.join (lines.map (· ++ "\n"))) = some commands := by
  have joined : (String.join (lines.map (· ++ "\n"))).toList =
      (lines.map String.toList).flatMap (· ++ ['\n']) := by
    simp [String.toList_join, List.flatMap_map]
  have kept : (lines.map String.toList ++ [[]]).filter (!isComment ·) =
      (lines.map String.toList).filter (!isComment ·) ++ [[]] := by
    rw [List.filter_append]
    rfl
  have parsed : Sexp.read (withoutComments (String.join (lines.map (· ++ "\n")))) =
      .ok (commands.map Command.sexp) := by
    apply Sexp.read_of_spells
    rw [withoutComments, String.toList_ofList, joined, Text.splitEvery_lines carries.newline_notMem,
      kept, Text.intercalate_lines]
    exact carries.spells
  rw [commands?, parsed]
  exact Command.mapM_ofSexp?_sexp commands

end Carries

/-! ## Sections -/

/-- The commands of a script by section. -/
structure Sections where
  options : List Command := [.setOption ":produce-models" "true"]
  declarations : List Command := []
  definitions : List Command := []
  assertions : List Command := []
  queries : List Command := []

/-- All commands, in the order of the lines of a script. -/
def Sections.commands (sections : Sections) : List Command :=
  sections.options ++ [.setLogic "QF_LIA"] ++ sections.declarations ++ sections.definitions ++
    sections.assertions ++ [.checkSat] ++ sections.queries

/-- Each section of a script holds the commands of this section. -/
structure Renders (script : Script) (sections : Sections) : Prop where
  options : Carries script.options sections.options
  declarations : Carries script.declarations sections.declarations
  definitions : Carries script.definitions sections.definitions
  assertions : Carries script.assertions sections.assertions
  queries : Carries script.queries sections.queries

@[simp]
theorem newline_notMem_oneLine (text : String) : '\n' ∉ (Script.oneLine text).toList := by
  rw [Script.oneLine, String.toList_ofList]
  intro member
  obtain ⟨c, _, replaced⟩ := List.mem_map.mp member
  split at replaced
  · cases replaced
  · rename_i noBreak
    exact noBreak (.inl replaced)

namespace Renders

theorem initial : Renders {} {} where
  options := by
    have line := Carries.single
      (Command.bare_setOption ":produce-models" "true" (by decide) (by decide))
    rwa [Command.text_setOption] at line
  declarations := .nil
  definitions := .nil
  assertions := .nil
  queries := .nil

variable {script : Script} {sections : Sections}

theorem setOption {option value : String}
    (renders : Renders script sections) (bare : (Command.setOption option value).sexp.Bare) :
    Renders (script.setOption option value)
      { sections with options := sections.options ++ [.setOption option value] } :=
  { renders with
    options := by
      rw [Script.setOption, ← Command.text_setOption]
      exact renders.options.append (.single bare) }

theorem declareConst {symbol : String} {sort : ValueSort}
    (renders : Renders script sections) (bare : (Command.declareConst symbol sort).sexp.Bare) :
    Renders (script.declareConst symbol sort)
      { sections with declarations := sections.declarations ++ [.declareConst symbol sort] } :=
  { renders with
    declarations := by
      rw [Script.declareConst, ← Command.text_declareConst]
      exact renders.declarations.append (.single bare) }

theorem comment (text : String) (renders : Renders script sections) :
    Renders (script.comment text) sections :=
  { renders with
    declarations := by
      have carried := renders.declarations.append (.comment (newline_notMem_oneLine text) .nil)
      rwa [List.append_nil] at carried }

theorem defineFun {symbol : String} {sort : ValueSort} {body : Sexp}
    (renders : Renders script sections) (bare : (Command.defineConst symbol sort body).sexp.Bare) :
    Renders (script.defineFun symbol sort body.text)
      { sections with definitions := sections.definitions ++ [.defineConst symbol sort body] } :=
  { renders with
    definitions := by
      rw [Script.defineFun, ← Command.text_defineConst]
      exact renders.definitions.append (.single bare) }

private theorem assert {term : Sexp}
    (renders : Renders script sections) (bare : (Command.assert term).sexp.Bare) :
    Renders (script.assert term.text)
      { sections with assertions := sections.assertions ++ [.assert term] } :=
  { renders with
    assertions := by
      rw [Script.assert, ← Command.text_assert]
      exact renders.assertions.append (.single bare) }

theorem getValue {symbols : List String}
    (renders : Renders script sections)
    (bare : (Command.getValue (symbols.map .atom)).sexp.Bare) :
    Renders (script.getValue symbols)
      { sections with
        queries := sections.queries ++
          if symbols.isEmpty then [] else [.getValue (symbols.map .atom)] } := by
  rw [Script.getValue]
  split
  · rwa [List.append_nil]
  · exact
      { renders with
        queries := by
          rw [← Command.text_getValue]
          exact renders.queries.append (.single bare) }

/-- Declaring item by item adds the commands of all items. -/
theorem foldl_declare
    {α : Type} {step : Script → α → Script} {commands : α → List Command} {items : List α}
    (declares : ∀ item ∈ items, ∀ {script sections}, Renders script sections →
      Renders (step script item)
        { sections with declarations := sections.declarations ++ commands item })
    (renders : Renders script sections) :
    Renders (items.foldl step script)
      { sections with declarations := sections.declarations ++ items.flatMap commands } := by
  induction items generalizing script sections with
  | nil => rwa [List.flatMap_nil, List.append_nil]
  | cons item rest inductionHypothesis =>
      rw [List.forall_mem_cons] at declares
      rw [List.foldl_cons, List.flatMap_cons, ← List.append_assoc]
      exact inductionHypothesis declares.2 (declares.1 renders)

theorem foldl_assert {terms : List Sexp}
    (bare : ∀ term ∈ terms, term.Bare) (renders : Renders script sections) :
    Renders (terms.foldl (fun script term => script.assert term.text) script)
      { sections with assertions := sections.assertions ++ terms.map .assert } := by
  induction terms generalizing script sections with
  | nil => rwa [List.map_nil, List.append_nil]
  | cons term rest inductionHypothesis =>
      rw [List.forall_mem_cons] at bare
      have first := renders.assert (Command.bare_assert term bare.1)
      have others := inductionHypothesis bare.2 first
      rwa [List.append_assoc] at others

/-- The lines of a script hold its commands, one section after the other. -/
theorem carries_lines (renders : Renders script sections) :
    Carries script.lines sections.commands := by
  have heading : Carries ["; " ++ "generated by declogic"] [] := .comment (by decide) .nil
  have logic : Carries ["(set-logic QF_LIA)"] [.setLogic "QF_LIA"] :=
    .single (Command.bare_setLogic "QF_LIA" (by decide))
  have check : Carries ["", "(check-sat)"] [.checkSat] := .blank (.single Command.bare_checkSat)
  exact heading.append renders.options |>.append logic |>.append renders.declarations.paragraph
    |>.append renders.definitions.paragraph |>.append renders.assertions.paragraph
    |>.append check |>.append renders.queries

theorem commands?_text (renders : Renders script sections) :
    commands? script.text = some sections.commands :=
  renders.carries_lines.commands?_text

end Renders

end Smt

end Rulebook
