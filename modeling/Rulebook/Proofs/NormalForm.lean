import Rulebook.Pass
import Rulebook.Proofs.Flatness
import Rulebook.Proofs.Normalization
import Rulebook.Proofs.Order

/-!
# Normal forms

A literal is a normal form. So is a condition without literals that negates truth tests and texts
only and whose junctions have two parts or more each, in ascending order and none of them a
junction of the same kind. Normalizing leads to such a form from every condition and changes none
that is one already, so that a second time it changes nothing.
-/

namespace Rulebook

namespace Condition

/-- A normal form negates only truth tests and texts. -/
def bearsNegation : Condition → Bool
  | .var _ | .verbatim _ => true
  | _ => false

def Ascending (parts : List Condition) : Prop :=
  parts.Pairwise fun left right => left.compare right = .lt

/-- What holds of each condition in a normal form that is not a literal itself. -/
def TidyAtTop : Condition → Prop
  | .literal _ => False
  | .junction kind parts => (junction kind parts).FlatAtTop ∧ Ascending parts
  | .not operand => operand.bearsNegation
  | .var _ | .comparison _ _ _ | .verbatim _ => True

def Tidy (condition : Condition) : Prop := ∀ node ∈ condition.nodes, node.TidyAtTop

def Normal (condition : Condition) : Prop :=
  (∃ value, condition = .literal value) ∨ condition.Tidy

instance (parts : List Condition) : Decidable (Ascending parts) :=
  inferInstanceAs (Decidable (parts.Pairwise _))

instance (condition : Condition) : Decidable condition.TidyAtTop :=
  match condition with
  | .literal _ => .isFalse id
  | .junction _ _ => inferInstanceAs (Decidable (_ ∧ _))
  | .not operand => inferInstanceAs (Decidable (operand.bearsNegation = true))
  | .var _ | .comparison _ _ _ | .verbatim _ => .isTrue trivial

instance (condition : Condition) : Decidable condition.Tidy :=
  inferInstanceAs (Decidable (∀ node ∈ condition.nodes, node.TidyAtTop))

instance (condition : Condition) : Decidable condition.Normal :=
  inferInstanceAs (Decidable ((∃ value, condition = .literal value) ∨ condition.Tidy))

/-- What a junction of the kind consists of in a normal form. -/
def IsOperand (kind : Junction) (part : Condition) : Prop := part.kind? ≠ some kind ∧ part.Tidy

/-- A tidy junction has two operands or more, in ascending order. -/
theorem tidy_junction_iff {kind : Junction} {parts : List Condition} :
    (junction kind parts).Tidy ↔
      2 ≤ parts.length ∧ Ascending parts ∧ ∀ part ∈ parts, part.IsOperand kind := by
  rw [Tidy, forall_nodes_junction_iff, TidyAtTop, FlatAtTop]
  constructor
  · rintro ⟨⟨⟨several, apart⟩, ascending⟩, tidy⟩
    exact ⟨several, ascending, fun part member => ⟨apart part member, tidy part member⟩⟩
  · rintro ⟨several, ascending, operands⟩
    have apart : ∀ part ∈ parts, part.kind? ≠ some kind := fun part member =>
      (operands part member).1
    exact ⟨⟨⟨several, apart⟩, ascending⟩, fun part member => (operands part member).2⟩

@[simp]
theorem tidy_not_iff {operand : Condition} : (not operand).Tidy ↔ operand.bearsNegation := by
  rw [Tidy, nodes, List.forall_mem_cons]
  constructor
  · exact fun tidy => tidy.1
  · intro bears
    refine ⟨bears, ?_⟩
    cases operand with
    | var name => exact List.forall_mem_singleton.mpr trivial
    | verbatim text => exact List.forall_mem_singleton.mpr trivial
    | _ => cases bears

@[simp]
theorem tidy_var (name : String) : (var name).Tidy := List.forall_mem_singleton.mpr trivial

@[simp]
theorem tidy_comparison (name : String) (op : Comparator) (constant : Value) :
    (comparison name op constant).Tidy :=
  List.forall_mem_singleton.mpr trivial

@[simp]
theorem tidy_verbatim (text : String) : (verbatim text).Tidy :=
  List.forall_mem_singleton.mpr trivial

@[simp]
theorem normal_literal (value : Bool) : (literal value).Normal := .inl ⟨value, rfl⟩

theorem Tidy.ne_literal {condition : Condition} (tidy : condition.Tidy) (value : Bool) :
    condition ≠ literal value := by
  rintro rfl
  exact tidy (literal value) List.mem_cons_self

/-- What a folded condition contributes to a junction: its parts if it is of the same kind, and
nothing if it is the neutral literal. -/
def contribution (kind : Junction) (condition : Condition) : List Condition :=
  if condition = literal kind.unit then [] else splice kind condition

@[simp]
theorem contribution_unit (kind : Junction) : contribution kind (literal kind.unit) = [] :=
  if_pos rfl

theorem Tidy.contribution_eq {condition : Condition} (tidy : condition.Tidy) (kind : Junction) :
    contribution kind condition = splice kind condition :=
  if_neg (tidy.ne_literal kind.unit)

theorem IsOperand.contribution_eq {kind : Junction} {part : Condition}
    (isOperand : part.IsOperand kind) : contribution kind part = [part] := by
  rw [isOperand.2.contribution_eq, splice_of_kind_ne isOperand.1]

private theorem flatMap_splice_filter (kind : Junction) (parts : List Condition) :
    (parts.filter fun part => !part.isLiteral kind.unit).flatMap (splice kind) =
      parts.flatMap (contribution kind) := by
  induction parts with
  | nil => rfl
  | cons part rest inductionHypothesis =>
      by_cases neutral : part = literal kind.unit
      · have dropped : (!part.isLiteral kind.unit) = false := by
          rw [isLiteral_iff.mpr neutral]
          rfl
        rw [List.filter_cons, dropped, List.flatMap_cons, contribution, if_pos neutral]
        exact inductionHypothesis
      · have kept : (!part.isLiteral kind.unit) = true := by
          rw [Bool.not_eq_true', ← Bool.not_eq_true, isLiteral_iff]
          exact neutral
        rw [List.filter_cons, kept, List.flatMap_cons, contribution, if_neg neutral,
          ← inductionHypothesis]
        rfl

/-- A folded junction in terms of what its parts contribute. -/
theorem foldJunction_eq (kind : Junction) (parts : List Condition) :
    foldJunction kind parts =
      if literal kind.decisive ∈ parts then literal kind.decisive
      else ofParts kind (SortedSet.ofList compare (parts.flatMap (contribution kind))) := by
  have settled : parts.any (isLiteral kind.decisive) = true ↔ literal kind.decisive ∈ parts := by
    simp [isLiteral_iff]
  simp only [foldJunction, settled, flatMap_splice_filter]

theorem sorted_ascending (parts : List Condition) : Ascending (SortedSet.ofList compare parts) :=
  SortedSet.ofList_ascending compare_linear parts

theorem sorted_eq_of_mem_iff {parts sorted : List Condition} (ascending : Ascending sorted)
    (sameMembers : ∀ part, part ∈ parts ↔ part ∈ sorted) :
    SortedSet.ofList compare parts = sorted :=
  SortedSet.ofList_eq_of_mem_iff compare_linear ascending sameMembers

private theorem isOperand_of_mem_splice {kind : Junction} {condition part : Condition}
    (tidy : condition.Tidy) (member : part ∈ splice kind condition) : part.IsOperand kind := by
  by_cases sameKind : condition.kind? = some kind
  · obtain ⟨parts, rfl⟩ := kind?_eq_some_iff.mp sameKind
    rw [splice_junction] at member
    exact (tidy_junction_iff.mp tidy).2.2 part member
  · rw [splice_of_kind_ne sameKind, List.mem_singleton] at member
    rw [member]
    exact ⟨sameKind, tidy⟩

private theorem isOperand_of_mem_contribution {kind : Junction} {condition part : Condition}
    (normal : condition.Normal) (undecided : condition ≠ literal kind.decisive)
    (member : part ∈ contribution kind condition) : part.IsOperand kind := by
  rcases normal with ⟨value, rfl⟩ | tidy
  · have notDecisive : value ≠ kind.decisive := fun same => undecided (congrArg literal same)
    rw [Junction.eq_unit_of_ne_decisive notDecisive, contribution_unit] at member
    cases member
  · rw [tidy.contribution_eq] at member
    exact isOperand_of_mem_splice tidy member

section Contributions

variable {kind : Junction} {parts : List Condition}

/-- Folding only ever joins operands. -/
theorem isOperand_of_mem_sorted
    (normal : ∀ part ∈ parts, part.Normal) (undecided : literal kind.decisive ∉ parts) :
    ∀ operand ∈ SortedSet.ofList compare (parts.flatMap (contribution kind)),
      operand.IsOperand kind := by
  intro operand member
  rw [SortedSet.mem_ofList_iff compare_eq_iff] at member
  obtain ⟨part, isPart, inPart⟩ := List.mem_flatMap.mp member
  have notDecisive : part ≠ literal kind.decisive := fun same => undecided (same ▸ isPart)
  exact isOperand_of_mem_contribution (normal part isPart) notDecisive inPart

private theorem normal_ofParts (ascending : Ascending parts)
    (operands : ∀ part ∈ parts, part.IsOperand kind) : (ofParts kind parts).Normal := by
  match parts with
  | [] => exact normal_literal _
  | [part] => exact .inr (operands part List.mem_cons_self).2
  | first :: second :: rest =>
      have several : 2 ≤ (first :: second :: rest).length := by
        rw [List.length_cons, List.length_cons]
        omega
      exact .inr (tidy_junction_iff.mpr ⟨several, ascending, operands⟩)

/-- Folding needs no more of the parts than that they are normal forms themselves. -/
theorem normal_foldJunction (normal : ∀ part ∈ parts, part.Normal) :
    (foldJunction kind parts).Normal := by
  rw [foldJunction_eq]
  by_cases settled : literal kind.decisive ∈ parts
  · rw [if_pos settled]
    exact normal_literal _
  · rw [if_neg settled]
    exact normal_ofParts (sorted_ascending _) (isOperand_of_mem_sorted normal settled)

/-- Operands in order need no folding. -/
theorem foldJunction_of_tidy (tidy : (junction kind parts).Tidy) :
    foldJunction kind parts = junction kind parts := by
  obtain ⟨several, ascending, operands⟩ := tidy_junction_iff.mp tidy
  have undecided : literal kind.decisive ∉ parts := by
    intro member
    exact (operands _ member).2.ne_literal kind.decisive rfl
  have contributed : parts.flatMap (contribution kind) = parts := by
    calc
      parts.flatMap (contribution kind) = parts.flatMap fun part => [part] :=
        List.flatMap_congr fun part member => (operands part member).contribution_eq
      _ = parts := List.flatMap_singleton' parts
  have sorted : SortedSet.ofList compare parts = parts :=
    sorted_eq_of_mem_iff ascending fun _ => Iff.rfl
  rw [foldJunction_eq, if_neg undecided, contributed, sorted, ofParts_eq_junction_iff.mpr several]

end Contributions

end Condition

/-! ## Normalizing -/

/-- The kind that a junction takes under a sign. -/
def Junction.signed (negated : Bool) (kind : Junction) : Junction :=
  if negated then kind.dual else kind

namespace Condition

/-- The normal form of the condition or, where `negated`, of its negation. -/
def normalizeSigned (negated : Bool) (condition : Condition) : Condition :=
  fold (pushNegation negated condition)

private theorem pushNegations_eq_map (negated : Bool) (parts : List Condition) :
    pushNegations negated parts = parts.map (pushNegation negated) := by
  induction parts with
  | nil => rfl
  | cons part rest inductionHypothesis => rw [pushNegations, inductionHypothesis, List.map_cons]

private theorem foldAll_eq_map (parts : List Condition) : foldAll parts = parts.map fold := by
  induction parts with
  | nil => rfl
  | cons part rest inductionHypothesis => rw [foldAll, inductionHypothesis, List.map_cons]

/-- A sign changes the kind of a junction and passes on to its parts. -/
theorem normalizeSigned_junction (negated : Bool) (kind : Junction) (parts : List Condition) :
    normalizeSigned negated (junction kind parts) =
      foldJunction (kind.signed negated) (parts.map (normalizeSigned negated)) := by
  rw [normalizeSigned, pushNegation, fold, foldAll_eq_map, pushNegations_eq_map, List.map_map]
  rfl

@[simp]
theorem normalizeSigned_not (negated : Bool) (operand : Condition) :
    normalizeSigned negated (not operand) = normalizeSigned (!negated) operand := by
  rw [normalizeSigned, pushNegation]
  rfl

/-- Under either sign the outcome is a normal form. The induction carries the sign, since negations
turn it around. -/
theorem normal_normalizeSigned (negated : Bool) (condition : Condition) :
    (normalizeSigned negated condition).Normal := by
  induction condition using partsInduction generalizing negated with
  | literal value => exact normal_literal _
  | var name =>
      cases negated with
      | false => exact .inr (tidy_var name)
      | true => exact .inr (tidy_not_iff.mpr rfl)
  | comparison name op constant => exact .inr (tidy_comparison _ _ _)
  | junction kind parts inductionHypothesis =>
      rw [normalizeSigned_junction]
      apply normal_foldJunction
      rw [List.forall_mem_map]
      intro part member
      exact inductionHypothesis part member negated
  | not operand inductionHypothesis =>
      rw [normalizeSigned_not]
      exact inductionHypothesis (!negated)
  | verbatim text =>
      cases negated with
      | false => exact .inr (tidy_verbatim text)
      | true => exact .inr (tidy_not_iff.mpr rfl)

theorem normal_normalize (condition : Condition) : condition.normalize.Normal :=
  normal_normalizeSigned false condition

/-- Tidy conditions stay as they are, part by part. -/
theorem normalizeSigned_of_tidy {condition : Condition} (tidy : condition.Tidy) :
    normalizeSigned false condition = condition := by
  induction condition using partsInduction with
  | literal value => exact absurd rfl (tidy.ne_literal value)
  | var name => rfl
  | comparison name op constant => rfl
  | junction kind parts inductionHypothesis =>
      have operands := (tidy_junction_iff.mp tidy).2.2
      have unchanged : parts.map (normalizeSigned false) = parts := by
        calc
          parts.map (normalizeSigned false) = parts.map id :=
            List.map_congr_left fun part member =>
              inductionHypothesis part member (operands part member).2
          _ = parts := List.map_id parts
      rw [normalizeSigned_junction, unchanged]
      exact foldJunction_of_tidy tidy
  | not operand _ =>
      have bears := tidy_not_iff.mp tidy
      cases operand with
      | var name => rfl
      | verbatim text => rfl
      | _ => cases bears
  | verbatim text => rfl

theorem normalize_of_normal {condition : Condition} (normal : condition.Normal) :
    condition.normalize = condition := by
  rcases normal with ⟨value, rfl⟩ | tidy
  · cases value <;> rfl
  · exact normalizeSigned_of_tidy tidy

@[simp]
theorem normalize_normalize (condition : Condition) :
    condition.normalize.normalize = condition.normalize :=
  normalize_of_normal (normal_normalize condition)

end Condition

private theorem Model.simplify_simplify (model : Model) :
    model.simplify.simplify = model.simplify := by
  have twice : Rule.simplify ∘ Rule.simplify = Rule.simplify := by
    funext rule
    simp only [Function.comp_apply, Rule.simplify, Condition.normalize_normalize]
  simp only [Model.simplify, Model.withRules, List.map_map, twice]

/-- Normalizing ends in a normal form and leaves normal forms as they are. Doing it twice is doing
it once, for conditions and for models. -/
theorem normalize_normal_form :
    (∀ condition : Condition, condition.normalize.Normal) ∧
    (∀ condition : Condition, condition.Normal → condition.normalize = condition) ∧
    (∀ condition : Condition, condition.normalize.normalize = condition.normalize) ∧
    ∀ model : Model, model.simplify.simplify = model.simplify :=
  ⟨Condition.normal_normalize, fun _ => Condition.normalize_of_normal,
    Condition.normalize_normalize, Model.simplify_simplify⟩

/-- A condition of each kind but a literal, each in its place. -/
def discountCondition : Condition :=
  .junction .or
    [.var "member", .comparison "total" .ge (.int 50),
      .junction .and [.var "coupon", .not (.verbatim "expired(coupon)")], .not (.var "closed"),
      .verbatim "audit()"]

theorem normalize_normal_form_discount :
    discountCondition.Normal ∧ discountCondition.normalize = discountCondition := by
  have normal : discountCondition.Normal := by decide
  exact ⟨normal, normalize_normal_form.2.1 discountCondition normal⟩

end Rulebook
