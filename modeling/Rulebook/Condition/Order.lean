import Rulebook.Condition.Basic

/-!
# The order of conditions

Conditions are ordered by kind, then by content; junctions compare their parts one after the
other, a proper beginning coming first. Two conditions compare as equal exactly when they are
equal, and this decides equality.
-/

namespace Rulebook

/-- The place of the junction in the order of kinds. -/
def Junction.rank : Junction → Nat
  | .and => 0
  | .or => 1

@[simp]
theorem Junction.rank_inj (left right : Junction) : left.rank = right.rank ↔ left = right := by
  cases left <;> cases right <;> simp [rank]

namespace Condition

/-- The place of the kind of a condition in the order of conditions. -/
def rank : Condition → Nat
  | .literal _ => 0
  | .var _ => 1
  | .comparison _ _ _ => 2
  | .junction _ _ => 3
  | .not _ => 4
  | .verbatim _ => 5

mutual

def compare : Condition → Condition → Ordering
  | .literal left, .literal right => Ord.compare left.toNat right.toNat
  | .var left, .var right => Text.compareText left right
  | .comparison name op constant, .comparison name' op' constant' =>
      (Text.compareText name name').then
        ((Ord.compare op.rank op'.rank).then (constant.compare constant'))
  | .junction kind parts, .junction kind' parts' =>
      (Ord.compare kind.rank kind'.rank).then (compareParts parts parts')
  | .not left, .not right => compare left right
  | .verbatim left, .verbatim right => Text.compareText left right
  | left, right => Ord.compare left.rank right.rank

/-- Lexicographic comparison of lists of parts. -/
def compareParts : List Condition → List Condition → Ordering
  | [], [] => .eq
  | [], _ :: _ => .lt
  | _ :: _, [] => .gt
  | left :: lefts, right :: rights => (compare left right).then (compareParts lefts rights)

end

mutual

@[simp]
theorem compare_eq_iff (left right : Condition) : left.compare right = .eq ↔ left = right := by
  cases left with
  | literal value =>
      cases right with
      | literal other => cases value <;> cases other <;> simp [compare]
      | _ => simp [compare, rank]
  | var name => cases right <;> simp [compare, rank, Text.compareText_eq_iff]
  | comparison name op constant =>
      cases right <;>
        simp [compare, rank, Ordering.then_eq_eq, Text.compareText_eq_iff,
          Comparator.rank_inj, Value.compare_eq_iff]
  | junction kind parts =>
      cases right with
      | junction other others =>
          simp [compare, Ordering.then_eq_eq, Junction.rank_inj, compareParts_eq_iff parts others]
      | _ => simp [compare, rank]
  | not operand =>
      cases right with
      | not other => simp [compare, compare_eq_iff operand other]
      | _ => simp [compare, rank]
  | verbatim text => cases right <;> simp [compare, rank, Text.compareText_eq_iff]

theorem compareParts_eq_iff (lefts rights : List Condition) :
    compareParts lefts rights = .eq ↔ lefts = rights := by
  cases lefts with
  | nil => cases rights <;> simp [compareParts]
  | cons left lefts =>
      cases rights with
      | nil => simp [compareParts]
      | cons right rights =>
          simp [compareParts, Ordering.then_eq_eq, compare_eq_iff left right,
            compareParts_eq_iff lefts rights]

end

instance : DecidableEq Condition := fun left right =>
  decidable_of_iff (left.compare right = .eq) (compare_eq_iff left right)

end Condition

end Rulebook
