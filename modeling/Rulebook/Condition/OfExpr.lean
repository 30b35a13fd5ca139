import Rulebook.Condition.Basic
import Rulebook.Program.Expr
import Rulebook.Text.Integer

/-!
# Conditions of source expressions

The condition that an expression of the source spells. An expression outside the language of
conditions is kept as its text.
-/

namespace Rulebook

namespace Expr

/-- The value of a constant expression; an integer may carry a sign. -/
def constant? : Expr → Option Value
  | .none _ => some .none
  | .bool _ value => some (.bool value)
  | .int _ value => some (.int value)
  | .string _ content => some (.string content)
  | .signed _ .negative (.int _ value) => (Text.int64? (-value.toInt)).map .int
  | .signed _ .positive (.int _ value) => some (.int value)
  | _ => Option.none

def isNone : Expr → Bool
  | .none _ => true
  | _ => false

/-- The source text of an expression. -/
def sourceText (source : String) (expr : Expr) : String := Text.trim (expr.span.slice source)

/-- What an expression returns when it is the value of a `return`. -/
def literal (source : String) (expr : Expr) : Literal :=
  match expr.constant? with
  | some value => .value value
  | Option.none => .verbatim (expr.sourceText source)

end Expr

/-- The operator that a relation stands for between two sides. Identity is equality only where
one side is `None`. -/
def Relation.comparator? (left right : Expr) : Relation → Option Comparator
  | .lt => some .lt
  | .le => some .le
  | .gt => some .gt
  | .ge => some .ge
  | .eq => some .eq
  | .ne => some .ne
  | .same => if left.isNone || right.isNone then some .eq else none
  | .notSame => if left.isNone || right.isNone then some .ne else none
  | .isIn | .notIn => none

namespace Condition

/-- A link of a comparison chain. It must stand between a name and a constant. -/
def ofLink? (left : Expr) (relation : Relation) (right : Expr) : Option Condition :=
  match relation.comparator? left right with
  | none => none
  | some op =>
      match left, right.constant?, left.constant?, right with
      | .name _ name, some constant, _, _ => some (.comparison name op constant)
      | _, _, some constant, .name _ name => some (.comparison name op.flip constant)
      | _, _, _, _ => none

/-- The links of a comparison chain, each between neighbours. -/
def ofLinks? (left : Expr) : List (Relation × Expr) → Option (List Condition)
  | [] => some []
  | (relation, right) :: rest =>
      match ofLink? left relation right, ofLinks? right rest with
      | some link, some links => some (link :: links)
      | _, _ => none

def ofConnective : Connective → Junction
  | .and => .and
  | .or => .or

/-- The condition that an expression of the source spells. -/
def ofExpr (source : String) : Expr → Condition
  | .bool _ value => .literal value
  | .name _ name => .var name
  | .connective _ op left right =>
      join (ofConnective op) [ofExpr source left, ofExpr source right]
  | .not _ operand => .not (ofExpr source operand)
  | .compare span left links =>
      match ofLinks? left links with
      | some links => join .and links
      | none => .verbatim ((Expr.compare span left links).sourceText source)
  | other => .verbatim (other.sourceText source)

end Condition

end Rulebook
