import Rulebook.Condition.Order

/-!
# Normal form of conditions

Negations are pushed down to names and texts, nested junctions of one kind become one, literals
are folded away, and the parts of a junction are sorted without repetition.
-/

namespace Rulebook.Condition

mutual

/-- The condition, negated or not, with its negations pushed down to the leaves. -/
def pushNegation (negated : Bool) : Condition → Condition
  | .literal value => .literal (value != negated)
  | .var name => if negated then .not (.var name) else .var name
  | .comparison name op constant =>
      .comparison name (if negated then op.negate else op) constant
  | .junction kind parts =>
      .junction (if negated then kind.dual else kind) (pushNegations negated parts)
  | .not operand => pushNegation (!negated) operand
  | .verbatim text => if negated then .not (.verbatim text) else .verbatim text

def pushNegations (negated : Bool) : List Condition → List Condition
  | [] => []
  | part :: rest => pushNegation negated part :: pushNegations negated rest

end

def isLiteral (value : Bool) : Condition → Bool
  | .literal other => other == value
  | _ => false

/-- The junction of parts that are themselves folded. A decisive literal is the result; a neutral
one disappears. -/
def foldJunction (kind : Junction) (parts : List Condition) : Condition :=
  if parts.any (isLiteral kind.decisive) then .literal kind.decisive
  else
    let flat := (parts.filter fun part => !part.isLiteral kind.unit).flatMap (splice kind)
    ofParts kind (SortedSet.ofList compare flat)

mutual

/-- Folds the junctions of a condition from the inside out. -/
def fold : Condition → Condition
  | .junction kind parts => foldJunction kind (foldAll parts)
  | other => other

def foldAll : List Condition → List Condition
  | [] => []
  | part :: rest => fold part :: foldAll rest

end

def normalize (condition : Condition) : Condition := fold (pushNegation false condition)

end Rulebook.Condition
