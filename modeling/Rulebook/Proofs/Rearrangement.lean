import Rulebook.Proofs.NormalForm
import Mathlib.Data.List.Forall2

/-!
# Rearrangements

Conditions may be rearranged by the laws of boolean algebra that leave their atoms alone: the parts
of a junction may be permuted, repeated, spliced and unwrapped, literals folded away, and negations
pushed in. Each law can be applied anywhere in a condition, under negations too, where it appears
as its dual. Two conditions can be rearranged into each other exactly if they have the same normal
form.
-/

namespace Rulebook

@[simp]
theorem Comparator.negate_negate (op : Comparator) : op.negate.negate = op := by
  cases op <;> rfl

namespace Junction

private theorem signed_unit (negated : Bool) (kind : Junction) :
    (kind.signed negated).unit = (kind.unit != negated) := by
  cases negated <;> cases kind <;> rfl

private theorem signed_decisive (negated : Bool) (kind : Junction) :
    (kind.signed negated).decisive = (kind.decisive != negated) := by
  cases negated <;> cases kind <;> rfl

private theorem signed_dual (negated : Bool) (kind : Junction) :
    kind.dual.signed negated = kind.signed (!negated) := by
  cases negated <;> cases kind <;> rfl

end Junction

namespace Condition

/-- The smallest congruence that contains the laws. -/
inductive Rearranged : Condition → Condition → Prop
  | refl (condition : Condition) : Rearranged condition condition
  | symm {condition other : Condition} : Rearranged condition other → Rearranged other condition
  | trans {first second third : Condition} :
      Rearranged first second → Rearranged second third → Rearranged first third
  | inJunction (kind : Junction) (before after : List Condition) {part other : Condition} :
      Rearranged part other →
      Rearranged (junction kind (before ++ part :: after))
        (junction kind (before ++ other :: after))
  | inNegation {operand other : Condition} :
      Rearranged operand other → Rearranged (not operand) (not other)
  | permute (kind : Junction) {parts others : List Condition} :
      parts.Perm others → Rearranged (junction kind parts) (junction kind others)
  | duplicate (kind : Junction) {part : Condition} {parts : List Condition} :
      part ∈ parts → Rearranged (junction kind (part :: parts)) (junction kind parts)
  | splice (kind : Junction) (before inner after : List Condition) :
      Rearranged (junction kind (before ++ junction kind inner :: after))
        (junction kind (before ++ (inner ++ after)))
  | unwrap (kind : Junction) (part : Condition) : Rearranged (junction kind [part]) part
  | neutral (kind : Junction) (before after : List Condition) :
      Rearranged (junction kind (before ++ literal kind.unit :: after))
        (junction kind (before ++ after))
  | settle (kind : Junction) {parts : List Condition} :
      literal kind.decisive ∈ parts →
      Rearranged (junction kind parts) (literal kind.decisive)
  | doubleNegation (condition : Condition) : Rearranged (not (not condition)) condition
  | deMorgan (kind : Junction) (parts : List Condition) :
      Rearranged (not (junction kind parts)) (junction kind.dual (parts.map not))
  | notLiteral (value : Bool) : Rearranged (not (literal value)) (literal !value)
  | notComparison (name : String) (op : Comparator) (constant : Value) :
      Rearranged (not (comparison name op constant)) (comparison name op.negate constant)

/-! ## Folding does not see rearrangements -/

section Folding

variable {kind : Junction} {parts others : List Condition}

private theorem foldJunction_of_mem_decisive (settled : literal kind.decisive ∈ parts) :
    foldJunction kind parts = literal kind.decisive := by
  rw [foldJunction_eq, if_pos settled]

/-- Only whether there is a decisive literal and what the parts contribute matters. -/
theorem foldJunction_congr
    (settled : literal kind.decisive ∈ parts ↔ literal kind.decisive ∈ others)
    (contributed : ∀ operand, operand ∈ parts.flatMap (contribution kind) ↔
      operand ∈ others.flatMap (contribution kind)) :
    foldJunction kind parts = foldJunction kind others := by
  have sorted : SortedSet.ofList compare (parts.flatMap (contribution kind)) =
      SortedSet.ofList compare (others.flatMap (contribution kind)) := by
    apply sorted_eq_of_mem_iff (sorted_ascending _)
    intro operand
    rw [contributed, SortedSet.mem_ofList_iff compare_eq_iff]
  rw [foldJunction_eq, foldJunction_eq, sorted]
  simp only [settled]

private theorem foldJunction_congr_mem (sameMembers : ∀ part, part ∈ parts ↔ part ∈ others) :
    foldJunction kind parts = foldJunction kind others := by
  apply foldJunction_congr (sameMembers _)
  intro operand
  simp only [List.mem_flatMap, sameMembers]

private theorem foldJunction_neutral (kind : Junction) (before after : List Condition) :
    foldJunction kind (before ++ literal kind.unit :: after) =
      foldJunction kind (before ++ after) := by
  have different : literal kind.decisive ≠ literal kind.unit := by
    intro same
    exact kind.unit_ne_decisive (Condition.literal.inj same).symm
  apply foldJunction_congr
  · simp [different]
  · intro operand
    rw [List.flatMap_append, List.flatMap_cons, contribution_unit, List.nil_append,
      List.flatMap_append]

private theorem contribution_ofParts (operands : ∀ part ∈ parts, part.IsOperand kind) :
    contribution kind (ofParts kind parts) = parts := by
  match parts with
  | [] => exact contribution_unit kind
  | [part] => exact (operands part List.mem_cons_self).contribution_eq
  | first :: second :: rest =>
      have notLiteral : junction kind (first :: second :: rest) ≠ literal kind.unit := by
        intro same
        cases same
      rw [ofParts_eq_junction_iff.mpr (by simp), contribution, if_neg notLiteral, splice_junction]

private theorem ofParts_ne_decisive (operands : ∀ part ∈ parts, part.IsOperand kind) :
    ofParts kind parts ≠ literal kind.decisive := by
  match parts with
  | [] => exact fun same => kind.unit_ne_decisive (Condition.literal.inj same)
  | [part] => exact (operands part List.mem_cons_self).2.ne_literal kind.decisive
  | first :: second :: rest =>
      intro same
      cases same

/-- A junction that is folded first may as well be spliced. -/
theorem foldJunction_spliced {inner : List Condition} (before after : List Condition)
    (normal : ∀ part ∈ inner, part.Normal) :
    foldJunction kind (before ++ foldJunction kind inner :: after) =
      foldJunction kind (before ++ (inner ++ after)) := by
  by_cases settled : literal kind.decisive ∈ inner
  · have outside : literal kind.decisive ∈ before ++ literal kind.decisive :: after :=
      List.mem_append_right before List.mem_cons_self
    have inside : literal kind.decisive ∈ before ++ (inner ++ after) :=
      List.mem_append_right before (List.mem_append_left after settled)
    rw [foldJunction_of_mem_decisive settled, foldJunction_of_mem_decisive outside,
      foldJunction_of_mem_decisive inside]
  · have operands := isOperand_of_mem_sorted normal settled
    have undecided := (ofParts_ne_decisive operands).symm
    rw [foldJunction_eq kind inner, if_neg settled]
    apply foldJunction_congr
    · simp [settled, undecided]
    · intro operand
      simp only [List.flatMap_append, List.flatMap_cons, List.mem_append,
        contribution_ofParts operands, SortedSet.mem_ofList_iff compare_eq_iff]

/-- A normal form that stands alone in a junction is what the junction folds to. -/
theorem foldJunction_singleton {part : Condition} (normal : part.Normal) :
    foldJunction kind [part] = part := by
  rcases normal with ⟨value, rfl⟩ | tidy
  · by_cases decisive : value = kind.decisive
    · rw [decisive]
      exact foldJunction_of_mem_decisive List.mem_cons_self
    · rw [Junction.eq_unit_of_ne_decisive decisive]
      exact foldJunction_neutral kind [] []
  · by_cases sameKind : part.kind? = some kind
    · obtain ⟨inner, rfl⟩ := kind?_eq_some_iff.mp sameKind
      have normal : ∀ part ∈ inner, part.Normal := fun part member =>
        .inr ((tidy_junction_iff.mp tidy).2.2 part member).2
      have folded : foldJunction kind inner = junction kind inner := foldJunction_of_tidy tidy
      calc
        foldJunction kind [junction kind inner] = foldJunction kind [foldJunction kind inner] := by
          rw [folded]
        _ = foldJunction kind (inner ++ []) := foldJunction_spliced [] [] normal
        _ = junction kind inner := by rw [List.append_nil, folded]
    · have isOperand : part.IsOperand kind := ⟨sameKind, tidy⟩
      have undecided : literal kind.decisive ∉ [part] := by
        rw [List.mem_singleton]
        exact (tidy.ne_literal kind.decisive).symm
      rw [foldJunction_eq, if_neg undecided, List.flatMap_singleton, isOperand.contribution_eq]
      rfl

end Folding

@[simp]
theorem normalizeSigned_literal (negated value : Bool) :
    normalizeSigned negated (literal value) = literal (value != negated) :=
  rfl

/-- Rearranged conditions have the same normal form under both signs. The two are treated at once
since under a negation each law is met as its dual. -/
theorem Rearranged.normalizeSigned_eq {condition other : Condition}
    (rearranged : Rearranged condition other) (negated : Bool) :
    normalizeSigned negated condition = normalizeSigned negated other := by
  induction rearranged generalizing negated with
  | refl condition => rfl
  | symm _ inductionHypothesis => exact (inductionHypothesis negated).symm
  | trans _ _ firstHypothesis secondHypothesis =>
      exact (firstHypothesis negated).trans (secondHypothesis negated)
  | inJunction kind before after _ inductionHypothesis =>
      rw [normalizeSigned_junction, normalizeSigned_junction, List.map_append, List.map_append,
        List.map_cons, List.map_cons, inductionHypothesis negated]
  | inNegation _ inductionHypothesis =>
      rw [normalizeSigned_not, normalizeSigned_not, inductionHypothesis (!negated)]
  | permute kind permutation =>
      rw [normalizeSigned_junction, normalizeSigned_junction]
      apply foldJunction_congr_mem
      intro part
      exact (permutation.map _).mem_iff
  | @duplicate kind part parts member =>
      have mapped : normalizeSigned negated part ∈ parts.map (normalizeSigned negated) :=
        List.mem_map_of_mem member
      rw [normalizeSigned_junction, normalizeSigned_junction]
      apply foldJunction_congr_mem
      intro tested
      rw [List.map_cons, List.mem_cons, or_iff_right_of_imp]
      rintro rfl
      exact mapped
  | splice kind before inner after =>
      have normal : ∀ part ∈ inner.map (normalizeSigned negated), part.Normal := by
        rw [List.forall_mem_map]
        exact fun part _ => normal_normalizeSigned negated part
      rw [normalizeSigned_junction, normalizeSigned_junction, List.map_append, List.map_append,
        List.map_append, List.map_cons, normalizeSigned_junction]
      exact foldJunction_spliced _ _ normal
  | unwrap kind part =>
      rw [normalizeSigned_junction, List.map_singleton]
      exact foldJunction_singleton (normal_normalizeSigned negated part)
  | neutral kind before after =>
      rw [normalizeSigned_junction, normalizeSigned_junction, List.map_append, List.map_append,
        List.map_cons, normalizeSigned_literal, ← Junction.signed_unit]
      exact foldJunction_neutral _ _ _
  | @settle kind parts member =>
      have mapped : literal (kind.signed negated).decisive ∈
          parts.map (normalizeSigned negated) := by
        rw [Junction.signed_decisive, ← normalizeSigned_literal]
        exact List.mem_map_of_mem member
      rw [normalizeSigned_junction, foldJunction_of_mem_decisive mapped,
        normalizeSigned_literal, Junction.signed_decisive]
  | doubleNegation condition =>
      rw [normalizeSigned_not, normalizeSigned_not, Bool.not_not]
  | deMorgan kind parts =>
      have negations : (parts.map not).map (normalizeSigned negated) =
          parts.map (normalizeSigned (!negated)) := by
        rw [List.map_map]
        exact List.map_congr_left fun part _ => normalizeSigned_not negated part
      rw [normalizeSigned_not, normalizeSigned_junction, normalizeSigned_junction, negations,
        Junction.signed_dual]
  | notLiteral value =>
      rw [normalizeSigned_not, normalizeSigned_literal, normalizeSigned_literal]
      cases value <;> cases negated <;> rfl
  | notComparison name op constant =>
      rw [normalizeSigned_not]
      cases negated with
      | false => rfl
      | true => exact congrArg (comparison name · constant) op.negate_negate.symm

/-! ## Every normal form is a rearrangement -/

namespace Rearranged

instance : Trans Rearranged Rearranged Rearranged := ⟨trans⟩

private theorem parts (kind : Junction) {parts others : List Condition}
    (pointwise : List.Forall₂ Rearranged parts others) (before : List Condition) :
    Rearranged (junction kind (before ++ parts)) (junction kind (before ++ others)) := by
  induction pointwise generalizing before with
  | nil => exact refl _
  | @cons head other rest others rearranged _ inductionHypothesis =>
      have shifted := inductionHypothesis (before ++ [other])
      rw [List.append_assoc, List.append_assoc] at shifted
      exact (inJunction kind before rest rearranged).trans shifted

private theorem absorb (kind : Junction) {extra parts : List Condition}
    (contained : extra ⊆ parts) :
    Rearranged (junction kind (extra ++ parts)) (junction kind parts) := by
  induction extra with
  | nil => exact refl _
  | cons head rest inductionHypothesis =>
      rw [List.cons_subset] at contained
      have repeated : head ∈ rest ++ parts := List.mem_append_right rest contained.1
      exact (duplicate kind repeated).trans (inductionHypothesis contained.2)

/-- Junctions of the same parts are rearrangements of each other. -/
theorem of_mem_iff (kind : Junction) {parts others : List Condition}
    (sameMembers : ∀ part, part ∈ parts ↔ part ∈ others) :
    Rearranged (junction kind parts) (junction kind others) := by
  have forward : others ⊆ parts := fun part => (sameMembers part).mpr
  have backward : parts ⊆ others := fun part => (sameMembers part).mp
  calc
    Rearranged (junction kind parts) (junction kind (others ++ parts)) :=
      (absorb kind forward).symm
    Rearranged _ (junction kind (parts ++ others)) := permute kind List.perm_append_comm
    Rearranged _ (junction kind others) := absorb kind backward

private theorem nothing (kind : Junction) : Rearranged (junction kind []) (literal kind.unit) :=
  (neutral kind [] []).symm.trans (unwrap kind (literal kind.unit))

private theorem ofParts (kind : Junction) (parts : List Condition) :
    Rearranged (junction kind parts) (Condition.ofParts kind parts) := by
  match parts with
  | [] => exact nothing kind
  | [part] => exact unwrap kind part
  | _ :: _ :: _ => exact refl _

/-- A junction may be replaced by the junction of what its parts contribute. -/
theorem contributions (kind : Junction) (parts before : List Condition) :
    Rearranged (junction kind (before ++ parts))
      (junction kind (before ++ parts.flatMap (contribution kind))) := by
  induction parts generalizing before with
  | nil => exact refl _
  | cons head rest inductionHypothesis =>
      have replaced : Rearranged (junction kind (before ++ head :: rest))
          (junction kind (before ++ (contribution kind head ++ rest))) := by
        by_cases isUnit : head = literal kind.unit
        · rw [isUnit, contribution_unit]
          exact neutral kind before rest
        · rw [contribution, if_neg isUnit]
          by_cases sameKind : head.kind? = some kind
          · obtain ⟨inner, rfl⟩ := kind?_eq_some_iff.mp sameKind
            rw [splice_junction]
            exact splice kind before inner rest
          · rw [splice_of_kind_ne sameKind]
            exact refl _
      have shifted := inductionHypothesis (before ++ contribution kind head)
      rw [List.append_assoc, List.append_assoc] at shifted
      exact replaced.trans shifted

/-- Folding a junction takes the laws only. -/
theorem foldJunction (kind : Junction) (parts : List Condition) :
    Rearranged (junction kind parts) (Condition.foldJunction kind parts) := by
  rw [foldJunction_eq]
  by_cases settled : literal kind.decisive ∈ parts
  · rw [if_pos settled]
    exact settle kind settled
  · rw [if_neg settled]
    have sameMembers : ∀ operand, operand ∈ parts.flatMap (contribution kind) ↔
        operand ∈ SortedSet.ofList compare (parts.flatMap (contribution kind)) := fun operand =>
      (SortedSet.mem_ofList_iff compare_eq_iff operand _).symm
    calc
      Rearranged (junction kind parts) (junction kind (parts.flatMap (contribution kind))) :=
        contributions kind parts []
      Rearranged _ (junction kind (SortedSet.ofList compare _)) := of_mem_iff kind sameMembers
      Rearranged _ (Condition.ofParts kind _) := ofParts kind _

end Rearranged

/-- The condition or, where `negated`, its negation. -/
def signed (negated : Bool) (condition : Condition) : Condition :=
  if negated then not condition else condition

/-- De Morgan's law, or nothing where there is no negation. -/
theorem Rearranged.signed_junction (negated : Bool) (kind : Junction) (parts : List Condition) :
    Rearranged (signed negated (junction kind parts))
      (junction (kind.signed negated) (parts.map (signed negated))) := by
  cases negated with
  | false =>
      have unsigned : parts.map (signed false) = parts := List.map_id parts
      rw [unsigned]
      exact refl _
  | true => exact deMorgan kind parts

/-- A condition under a sign can be rearranged into its normal form. -/
theorem rearranged_normalizeSigned (negated : Bool) (condition : Condition) :
    Rearranged (signed negated condition) (normalizeSigned negated condition) := by
  induction condition using partsInduction generalizing negated with
  | literal value =>
      cases negated with
      | false =>
          rw [normalizeSigned_literal, Bool.bne_false]
          exact .refl _
      | true =>
          rw [normalizeSigned_literal, Bool.bne_true]
          exact .notLiteral value
  | var name => cases negated <;> exact .refl _
  | comparison name op constant =>
      cases negated with
      | false => exact .refl _
      | true => exact .notComparison name op constant
  | junction kind parts inductionHypothesis =>
      have pointwise : List.Forall₂ Rearranged (parts.map (signed negated))
          (parts.map (normalizeSigned negated)) := by
        rw [List.forall₂_map_left_iff, List.forall₂_map_right_iff, List.forall₂_same]
        exact fun part member => inductionHypothesis part member negated
      rw [normalizeSigned_junction]
      calc
        Rearranged (signed negated (junction kind parts))
            (junction (kind.signed negated) (parts.map (signed negated))) :=
          .signed_junction negated kind parts
        Rearranged _ (junction (kind.signed negated) (parts.map (normalizeSigned negated))) :=
          .parts _ pointwise []
        Rearranged _ (foldJunction (kind.signed negated) _) := .foldJunction _ _
  | not operand inductionHypothesis =>
      have onOperand := inductionHypothesis (!negated)
      rw [normalizeSigned_not]
      cases negated with
      | false => exact onOperand
      | true => exact (Rearranged.doubleNegation operand).trans onOperand
  | verbatim text => cases negated <;> exact .refl _

/-- Conditions that can be rearranged into each other have the same normal form, and no others
do. -/
theorem rearranged_iff_normalize_eq (condition other : Condition) :
    Rearranged condition other ↔ condition.normalize = other.normalize := by
  constructor
  · intro rearranged
    exact rearranged.normalizeSigned_eq false
  · intro same
    have toNormalForm : Rearranged condition condition.normalize :=
      rearranged_normalizeSigned false condition
    have fromNormalForm : Rearranged other.normalize other :=
      (rearranged_normalizeSigned false other).symm
    rw [same] at toNormalForm
    exact toNormalForm.trans fromNormalForm

end Condition

end Rulebook
