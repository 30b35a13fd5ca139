import Rulebook.Model.Basic
import Rulebook.Text.Integer

/-!
# Domains of parameters

The domain of a parameter follows from its declaration or, failing that, from how the conditions
use its name. The bounds of an integer domain come from the constants the name is compared with,
and so do the values that represent it.
-/

namespace Rulebook

/-- The integer constants that a name is compared with. -/
structure Thresholds where
  /-- Constants of `>` and `>=`. -/
  lower : List Int64
  /-- Constants of `<` and `<=`. -/
  upper : List Int64
  /-- Constants of `==` and `!=`. -/
  exact : List Int64
deriving DecidableEq, Repr

def compareInt (left right : Int64) : Ordering := compare left.toInt right.toInt

namespace Thresholds

/-- The integer constants that conditions compare a name with, beside the operators. -/
def integerComparisons (name : String) (conditions : List Condition) :
    List (Comparator × Int64) :=
  (conditions.flatMap Condition.comparisons).filterMap fun
    | (other, op, .int constant) => if other = name then some (op, constant) else none
    | _ => none

def collect (name : String) (conditions : List Condition) : Thresholds :=
  let found := integerComparisons name conditions
  let constants (ops : List Comparator) : List Int64 :=
    (found.filter fun comparison => ops.contains comparison.1).map (·.2)
  ⟨constants [.gt, .ge], constants [.lt, .le], constants [.eq, .ne]⟩

def isEmpty (thresholds : Thresholds) : Bool :=
  thresholds.lower.isEmpty && thresholds.upper.isEmpty && thresholds.exact.isEmpty

/-- Every threshold, in order and without repetition. -/
def all (thresholds : Thresholds) : List Int64 :=
  SortedSet.ofList compareInt (thresholds.lower ++ thresholds.upper ++ thresholds.exact)

def smaller (left right : Int64) : Int64 := if left.toInt ≤ right.toInt then left else right

def larger (left right : Int64) : Int64 := if left.toInt ≤ right.toInt then right else left

def least? : List Int64 → Option Int64
  | [] => none
  | first :: rest => some (rest.foldl smaller first)

def greatest? : List Int64 → Option Int64
  | [] => none
  | first :: rest => some (rest.foldl larger first)

/-- The bound assumed where no constant bounds a name from below. -/
def defaultMin : Int64 := 0

/-- The bound assumed where no constant bounds a name from above. -/
def defaultMax : Int64 := 100

/-- The range from the least lower threshold to the greatest upper one. -/
def outerRange (thresholds : Thresholds) : Int64 × Int64 :=
  match least? thresholds.lower, greatest? thresholds.upper with
  | some low, some high => (low, high)
  | some low, none => (low, larger defaultMax low)
  | none, some high => (smaller defaultMin high, high)
  | none, none => (defaultMin, defaultMax)

/-- The outer range widened to the exact thresholds, its ends put in order. -/
def range (thresholds : Thresholds) : Int64 × Int64 :=
  let (low, high) := thresholds.outerRange
  let low := thresholds.exact.foldl smaller low
  let high := thresholds.exact.foldl larger high
  (smaller low high, larger low high)

end Thresholds

/-- How conditions use a name. -/
structure Usage where
  intCompared : Bool
  boolCompared : Bool
  truthTested : Bool
deriving DecidableEq, Repr

def Usage.scan (name : String) (conditions : List Condition) : Usage :=
  let nodes := conditions.flatMap Condition.nodes
  { intCompared := nodes.any fun
      | .comparison other _ (.int _) => other = name
      | _ => false
    boolCompared := nodes.any fun
      | .comparison other _ (.bool _) => other = name
      | _ => false
    truthTested := nodes.any fun
      | .var other => other = name
      | _ => false }

/-- Beginnings that make a name read like a yes-or-no question. -/
def booleanBeginnings : List String := ["is_", "has_", "can_", "should_"]

def isBooleanName (name : String) : Bool :=
  booleanBeginnings.any fun beginning => beginning.toList.isPrefixOf name.toList

namespace Domain

/-- The integer domain bounded by the thresholds of a name. -/
def integer (name : String) (conditions : List Condition) : Domain :=
  let (low, high) := (Thresholds.collect name conditions).range
  .range low high

/-- The domain that the use of a name suggests. -/
def ofUsage (name : String) (conditions : List Condition) : Domain :=
  let usage := Usage.scan name conditions
  if usage.intCompared then integer name conditions
  else if usage.boolCompared || usage.truthTested then .boolean
  else .untyped

/-- The domain of a parameter, from the strongest evidence there is: its type, its default value,
its name, its use. -/
def infer (name : String) (typeHint : Option String) (default : Option Value)
    (conditions : List Condition) : Domain :=
  if typeHint = some "bool" then .boolean
  else if typeHint = some "int" then integer name conditions
  else
    match default with
    | some (.bool _) => .boolean
    | some (.int _) => integer name conditions
    | _ => if isBooleanName name then .boolean else ofUsage name conditions

end Domain

/-- The integers from `min` to `max`. -/
def integersBetween (min max : Int64) : List Int64 :=
  (List.range (max.toInt - min.toInt + 1).toNat).map fun (step : Nat) =>
    Int64.ofInt (min.toInt + step)

/-- A threshold with its neighbours, as far as there are any. -/
def aroundThreshold (threshold : Int64) : List Int64 :=
  let neighbour (offset : Int) := (Text.int64? (threshold.toInt + offset)).getD threshold
  [neighbour (-1), threshold, neighbour 1]

/-- The values that represent an integer range: all of them if it spans at most `cutoff` steps,
else its ends and the surroundings of the thresholds within it. -/
def sampleIntegers (min max : Int64) (thresholds : Thresholds) (cutoff : Nat) : List Int64 :=
  if max.toInt - min.toInt ≤ cutoff then integersBetween min max
  else
    let near := (thresholds.all.flatMap aroundThreshold).filter fun value =>
      min.toInt ≤ value.toInt && value.toInt ≤ max.toInt
    SortedSet.ofList compareInt (min :: max :: near)

/-- The values that represent a domain. -/
def Domain.sample (name : String) (domain : Domain) (conditions : List Condition)
    (cutoff : Nat) : List Value :=
  match domain with
  | .boolean => [.bool true, .bool false]
  | .range min max =>
      (sampleIntegers min max (Thresholds.collect name conditions) cutoff).map .int
  | .untyped => [.none, .int 0, .int 1, .string ""]

end Rulebook
