import Rulebook.Decision
import Rulebook.Obligation.Basic
import Rulebook.Proofs.Smt.Semantics

/-!
# Two-valued reading

A decision read in two-valued logic: names stand for truth values or for integers of any size, and
a condition kept as text is simply true or false. Under such a reading every condition has a truth
value and every decision a result.
-/

namespace Rulebook

/-- Values for everything that conditions leave open. -/
structure Valuation where
  datum : String → Smt.Datum
  /-- The truth of the conditions kept as text. -/
  verbatim : String → Bool

namespace Smt.Datum

def truthy : Datum → Bool
  | .bool value => value
  | .int value => value != 0

def number : Datum → Int
  | .bool value => if value then 1 else 0
  | .int value => value

end Smt.Datum

/-- The truth value of a junction whose parts are all decided. -/
def Junction.holds : Junction → List Bool → Bool
  | .and, values => values.all id
  | .or, values => values.any id

namespace Condition

mutual

/-- Whether a condition holds. A name is never equal to a constant that is not a number, nor
ordered with it. -/
def holds (valuation : Valuation) : Condition → Bool
  | .literal value => value
  | .var name => (valuation.datum name).truthy
  | .comparison name op constant =>
      match constant.asInt? with
      | some number => op.holds (Ord.compare (valuation.datum name).number number.toInt)
      | none => op = .ne
  | .junction kind parts => kind.holds (holdsAll valuation parts)
  | .not operand => !holds valuation operand
  | .verbatim text => valuation.verbatim text

def holdsAll (valuation : Valuation) : List Condition → List Bool
  | [] => []
  | part :: rest => holds valuation part :: holdsAll valuation rest

end

end Condition

/-- The result that a decision comes to. -/
def Decision.choose (valuation : Valuation) : Decision → Literal
  | .leaf result => result
  | .branch condition result otherwise =>
      if condition.holds valuation then result else choose valuation otherwise

/-- A constraint admits values of one sort only. -/
def Constraint.sort : Constraint → ValueSort
  | .boolean => .bool
  | .range _ _ | .oneOf _ => .int

def Constraint.Admits : Constraint → Smt.Datum → Prop
  | .boolean, .bool _ => True
  | .range min max, .int value =>
      (∀ bound, min = some bound → bound.toInt ≤ value) ∧
        ∀ bound, max = some bound → value ≤ bound.toInt
  | .oneOf values, .int value => ∃ admitted ∈ values, value = admitted.toInt
  | _, _ => False

end Rulebook
