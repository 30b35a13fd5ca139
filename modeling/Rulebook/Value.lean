import Rulebook.Text.Order
import Rulebook.Text.Quoted

/-!
# Values and returned literals

The constants that conditions are compared with and that rules return.
-/

namespace Rulebook

inductive Value where
  | none
  | bool (value : Bool)
  | int (value : Int64)
  | string (value : String)
deriving DecidableEq, Repr

/-- What a rule returns: a value, or the text of an expression that is not a constant. -/
inductive Literal where
  | value (content : Value)
  | verbatim (text : String)
deriving DecidableEq, Repr

namespace Value

/-- Nothing, falsity, zero and the empty text count as false. -/
def truthy : Value → Bool
  | .none => false
  | .bool value => value
  | .int value => value != 0
  | .string value => value != ""

/-- The value as a number; truth values count as one and zero. -/
def asInt? : Value → Option Int64
  | .bool value => some (if value then 1 else 0)
  | .int value => some value
  | _ => Option.none

def kind : Value → String
  | .none => "None"
  | .bool _ => "bool"
  | .int _ => "int"
  | .string _ => "str"

def text : Value → String
  | .none => "None"
  | .bool true => "True"
  | .bool false => "False"
  | .int value => toString value.toInt
  | .string value => Text.quoted value

/-- The place of the kind of a value in the order of values. -/
def rank : Value → Nat
  | .none => 0
  | .bool _ => 1
  | .int _ => 2
  | .string _ => 3

/-- Values are ordered by kind, then by content. -/
def compare : Value → Value → Ordering
  | .bool left, .bool right => Ord.compare left.toNat right.toNat
  | .int left, .int right => Ord.compare left.toInt right.toInt
  | .string left, .string right => Text.compareText left right
  | left, right => Ord.compare left.rank right.rank

@[simp]
theorem compare_eq_iff (left right : Value) : left.compare right = .eq ↔ left = right := by
  cases left with
  | bool value =>
      cases right with
      | bool other => cases value <;> cases other <;> simp [compare]
      | _ => simp [compare, rank]
  | _ => cases right <;> simp [compare, rank, Text.compareText_eq_iff, Int64.toInt_inj]

end Value

namespace Literal

def text : Literal → String
  | .value content => content.text
  | .verbatim text => text

def isValue : Literal → Bool
  | .value _ => true
  | .verbatim _ => false

/-- Values come before texts of other expressions. -/
def compare : Literal → Literal → Ordering
  | .value left, .value right => left.compare right
  | .verbatim left, .verbatim right => Text.compareText left right
  | .value _, .verbatim _ => .lt
  | .verbatim _, .value _ => .gt

@[simp]
theorem compare_eq_iff (left right : Literal) : left.compare right = .eq ↔ left = right := by
  cases left <;> cases right <;> simp [compare, Value.compare_eq_iff, Text.compareText_eq_iff]

end Literal

end Rulebook
