import Rulebook.Proofs.Evaluation
import Mathlib.Data.List.Forall2

/-!
# Filling in what is unknown

A text in a condition stands for a condition that evaluation knows nothing about, and a name that
is not bound for a value it knows nothing about. A truth value that is found all the same stays
when the unknown becomes known: when conditions take the place of texts, each occurrence for
itself, and when further names are bound. Nor is evaluation more careful than it has to be. Where
truth tests and comparisons have truth values, a condition that has none can be filled in so that
it holds, and so that it does not.
-/

namespace Rulebook

/-- Other bindings give the bound names the same values, and may bind more names. -/
def Env.ExtendedBy (env other : Env) : Prop :=
  ∀ name value, env.get? name = some value → other.get? name = some value

private theorem Env.extendedBy_bind {env : Env} {name : String} (unbound : env.get? name = none)
    (value : Value) : env.ExtendedBy (env.bind name value) := by
  intro other bound isBound
  have different : other ≠ name := by
    rintro rfl
    rw [unbound] at isBound
    cases isBound
  rw [get?, bind, List.lookup_cons, beq_eq_false_iff_ne.mpr different]
  exact isBound

/-- The condition with some condition in the place of each text. -/
inductive Condition.Filled : Condition → Condition → Prop
  | literal (value : Bool) : Filled (.literal value) (.literal value)
  | var (name : String) : Filled (.var name) (.var name)
  | comparison (name : String) (op : Comparator) (constant : Value) :
      Filled (.comparison name op constant) (.comparison name op constant)
  | junction (kind : Junction) {parts others : List Condition} :
      List.Forall₂ Filled parts others → Filled (.junction kind parts) (.junction kind others)
  | not {operand other : Condition} : Filled operand other → Filled (.not operand) (.not other)
  | verbatim (text : String) (other : Condition) : Filled (.verbatim text) other

namespace Junction

variable {kind : Junction} {truths : List (Option Bool)}

private theorem truth_eq_none_iff :
    kind.truth truths = none ↔ some kind.decisive ∉ truths ∧ none ∈ truths := by
  by_cases decisive : some kind.decisive ∈ truths
  · simp [truth, decisive]
  · by_cases undecided : none ∈ truths
    · simp [truth, decisive, undecided]
    · simp [truth, decisive, undecided]

/-- An undecided junction comes out as its undecided parts do, if they all do the same. -/
theorem truth_getD (undecided : kind.truth truths = none) (value : Bool) :
    kind.truth (truths.map fun truth => some (truth.getD value)) = some value := by
  obtain ⟨noDecisive, someUndecided⟩ := truth_eq_none_iff.mp undecided
  by_cases isDecisive : value = kind.decisive
  · rw [isDecisive, truth_eq_decisive_iff]
    exact List.mem_map.mpr ⟨none, someUndecided, rfl⟩
  · rw [eq_unit_of_ne_decisive isDecisive, truth_eq_unit_iff, List.forall_mem_map]
    intro truth member
    cases truth with
    | none => rfl
    | some known =>
        have notDecisive : known ≠ kind.decisive := fun same => noDecisive (same ▸ member)
        rw [Option.getD_some, eq_unit_of_ne_decisive notDecisive]

end Junction

namespace Condition

/-- A truth value stays when texts are filled in and further names are bound. -/
theorem truth_filled
    {env other : Env} (extended : env.ExtendedBy other) {condition filled : Condition}
    (isFilled : Filled condition filled) {value : Bool}
    (decided : condition.truth env = some value) : filled.truth other = some value := by
  induction condition using partsInduction generalizing filled value with
  | literal known =>
      cases isFilled
      exact decided
  | var name =>
      cases isFilled
      rw [truth_var] at decided ⊢
      obtain ⟨bound, isBound, rfl⟩ := Option.map_eq_some_iff.mp decided
      rw [extended name bound isBound]
      rfl
  | comparison name op constant =>
      cases isFilled
      rw [truth_comparison] at decided ⊢
      obtain ⟨bound, isBound, related⟩ := Option.bind_eq_some_iff.mp decided
      rw [extended name bound isBound]
      exact related
  | junction kind parts inductionHypothesis =>
      cases isFilled with
      | @junction _ _ others pointwise =>
          rw [truth_junction] at decided ⊢
          refine Junction.truth_mono ?_ decided
          rw [List.forall₂_map_left_iff, List.forall₂_map_right_iff, List.forall₂_iff_zip]
          refine ⟨pointwise.length_eq, ?_⟩
          intro part filledPart paired known partDecided
          have isPart : part ∈ parts := (List.of_mem_zip paired).1
          have partFilled : Filled part filledPart := List.forall₂_zip pointwise paired
          exact inductionHypothesis part isPart partFilled partDecided
  | not operand inductionHypothesis =>
      cases isFilled with
      | not operandFilled =>
          rw [truth_not] at decided ⊢
          obtain ⟨known, operandDecided, rfl⟩ := Option.map_eq_some_iff.mp decided
          rw [inductionHypothesis operandFilled operandDecided]
          rfl
  | verbatim text => cases decided

private theorem Filled.refl (condition : Condition) : Filled condition condition := by
  induction condition using partsInduction with
  | literal value => exact .literal value
  | var name => exact .var name
  | comparison name op constant => exact .comparison name op constant
  | junction kind parts inductionHypothesis =>
      exact .junction kind (List.forall₂_same.mpr inductionHypothesis)
  | not operand inductionHypothesis => exact .not inductionHypothesis
  | verbatim text => exact .verbatim text _

/-- The truth tests and comparisons in the condition have truth values. -/
def AtomsDecided (env : Env) (condition : Condition) : Prop :=
  ∀ atom ∈ condition.nodes, atom.name?.isSome → ∃ value, atom.eval env = .ok value

private theorem atomsDecided_iff {env : Env} {condition : Condition} :
    condition.AtomsDecided env ↔
      ∀ atom ∈ condition.nodes, atom.name?.isSome → (atom.truth env).isSome := by
  simp only [AtomsDecided, Option.isSome_iff_exists, truth_eq_some_iff]

instance (env : Env) (condition : Condition) : Decidable (condition.AtomsDecided env) :=
  decidable_of_iff _ atomsDecided_iff.symm

private theorem AtomsDecided.of_part {env : Env} {kind : Junction} {parts : List Condition}
    (atoms : (junction kind parts).AtomsDecided env) {part : Condition} (isPart : part ∈ parts) :
    part.AtomsDecided env := by
  intro atom inPart
  exact atoms atom (List.mem_cons_of_mem _ (mem_nodesOf_iff.mpr ⟨part, isPart, inPart⟩))

/-- A condition without a truth value can be given either. One that has a truth value keeps it. -/
theorem exists_filled
    {env : Env} {condition : Condition} (atoms : condition.AtomsDecided env) (value : Bool) :
    ∃ filled, Filled condition filled ∧
      filled.truth env = some ((condition.truth env).getD value) := by
  induction condition using partsInduction generalizing value with
  | literal known => exact ⟨_, .literal known, rfl⟩
  | var name =>
      obtain ⟨known, decided⟩ := atoms (var name) List.mem_cons_self rfl
      refine ⟨_, .var name, ?_⟩
      rw [truth_eq_some_iff.mpr decided]
      rfl
  | comparison name op constant =>
      obtain ⟨known, decided⟩ := atoms (comparison name op constant) List.mem_cons_self rfl
      refine ⟨_, .comparison name op constant, ?_⟩
      rw [truth_eq_some_iff.mpr decided]
      rfl
  | junction kind parts inductionHypothesis =>
      have nonempty : Nonempty Condition := ⟨literal value⟩
      choose! fill isFilled filledTruth using fun part isPart =>
        inductionHypothesis part isPart (atoms.of_part isPart) value
      cases undecided : (junction kind parts).truth env with
      | some known => exact ⟨_, .refl _, undecided⟩
      | none =>
          refine ⟨junction kind (parts.map fill), .junction kind ?_, ?_⟩
          · rw [List.forall₂_map_right_iff, List.forall₂_same]
            exact isFilled
          · have truths : (parts.map fill).map (truth env) =
                (parts.map (truth env)).map fun truth => some (truth.getD value) := by
              rw [List.map_map, List.map_map]
              exact List.map_congr_left filledTruth
            rw [truth_junction] at undecided ⊢
            rw [truths]
            exact Junction.truth_getD undecided value
  | not operand inductionHypothesis =>
      have operandAtoms : operand.AtomsDecided env := fun atom inOperand =>
        atoms atom (List.mem_cons_of_mem _ inOperand)
      obtain ⟨filled, isFilled, filledTruth⟩ := inductionHypothesis operandAtoms (!value)
      refine ⟨_, .not isFilled, ?_⟩
      rw [truth_not, truth_not, filledTruth]
      cases operand.truth env <;> simp
  | verbatim text => exact ⟨literal value, .verbatim text _, rfl⟩

/-- A truth value that is found holds whatever the unknown turns out to be, and where only texts
are unknown, none is missing that could be found. -/
theorem eval_never_guesses :
    (∀ (condition filled : Condition) (env other : Env) (value : Bool),
      condition.eval env = .ok value → Filled condition filled → env.ExtendedBy other →
        filled.eval other = .ok value) ∧
    ∀ (condition : Condition) (env : Env), condition.AtomsDecided env →
      (∃ error, condition.eval env = .error error) →
        ∀ value, ∃ filled, Filled condition filled ∧ filled.eval env = .ok value := by
  constructor
  · intro condition filled env other value evaluated isFilled extended
    rw [← truth_eq_some_iff] at evaluated ⊢
    exact truth_filled extended isFilled evaluated
  · intro condition env atoms fails value
    obtain ⟨filled, isFilled, filledTruth⟩ := exists_filled atoms value
    have undecided : condition.truth env = none := toOption_eq_none_iff.mpr fails
    rw [undecided, Option.getD_none, truth_eq_some_iff] at filledTruth
    exact ⟨filled, isFilled, filledTruth⟩

/-- Two occurrences of one text, which need not come to the same. -/
def floodWarning : Condition :=
  .junction .or
    [.verbatim "rising(river)",
      .junction .and [.var "raining", .not (.verbatim "rising(river)")],
      .comparison "wind" .gt (.int 90)]

def night (wind : Int64) : Env := .ofList [("raining", .bool true), ("wind", .int wind)]

/-- The warning with a gauge in the place of one text and a literal in that of the other. -/
def gaugedWarning : Condition :=
  .junction .or
    [.var "gauge", .junction .and [.var "raining", .not (.literal true)],
      .comparison "wind" .gt (.int 90)]

/-- Strong wind settles the warning whatever the river does. In a calm night it may be given or
not. -/
theorem eval_never_guesses_floodWarning :
    (floodWarning.eval (night 120) = .ok true ∧ Filled floodWarning gaugedWarning ∧
      (night 120).ExtendedBy ((night 120).bind "gauge" (.bool false)) ∧
      gaugedWarning.eval ((night 120).bind "gauge" (.bool false)) = .ok true) ∧
    floodWarning.AtomsDecided (night 30) ∧
      (∃ error, floodWarning.eval (night 30) = .error error) ∧
      ∀ value, ∃ filled, Filled floodWarning filled ∧ filled.eval (night 30) = .ok value := by
  have evaluated : floodWarning.eval (night 120) = .ok true :=
    truth_eq_some_iff.mp (by decide)
  have inside : Filled (.junction .and [.var "raining", .not (.verbatim "rising(river)")])
      (.junction .and [.var "raining", .not (.literal true)]) :=
    .junction _ (.cons (.var _) (.cons (.not (.verbatim _ _)) .nil))
  have isFilled : Filled floodWarning gaugedWarning :=
    .junction _ (.cons (.verbatim _ _) (.cons inside (.cons (.comparison _ _ _) .nil)))
  have unbound : (night 120).get? "gauge" = none := by decide
  have extended := Env.extendedBy_bind unbound (.bool false)
  have atoms : floodWarning.AtomsDecided (night 30) := by decide
  have fails : ∃ error, floodWarning.eval (night 30) = .error error :=
    toOption_eq_none_iff.mp (by decide)
  have stays := eval_never_guesses.1 _ _ _ _ _ evaluated isFilled extended
  have bothWays := eval_never_guesses.2 _ _ atoms fails
  exact ⟨⟨evaluated, isFilled, extended, stays⟩, atoms, fails, bothWays⟩

end Condition

end Rulebook
