/-!
# Comparison operators

The six operators that conditions compare a name with a constant by.
-/

namespace Rulebook

inductive Comparator where
  | lt | le | gt | ge | eq | ne
deriving DecidableEq, Repr

namespace Comparator

def all : List Comparator := [.lt, .le, .gt, .ge, .eq, .ne]

def symbol : Comparator → String
  | .lt => "<"
  | .le => "<="
  | .gt => ">"
  | .ge => ">="
  | .eq => "=="
  | .ne => "!="

/-- The operator that holds exactly when this one does not. -/
def negate : Comparator → Comparator
  | .lt => .ge
  | .le => .gt
  | .gt => .le
  | .ge => .lt
  | .eq => .ne
  | .ne => .eq

/-- The operator with its operands exchanged. -/
def flip : Comparator → Comparator
  | .lt => .gt
  | .le => .ge
  | .gt => .lt
  | .ge => .le
  | .eq => .eq
  | .ne => .ne

/-- Whether the operator holds of two things that compare as given. -/
def holds : Comparator → Ordering → Bool
  | .lt, ordering => ordering == .lt
  | .le, ordering => ordering != .gt
  | .gt, ordering => ordering == .gt
  | .ge, ordering => ordering != .lt
  | .eq, ordering => ordering == .eq
  | .ne, ordering => ordering != .eq

def isEquality : Comparator → Bool
  | .eq | .ne => true
  | _ => false

/-- The place of the operator in the order of operators. -/
def rank : Comparator → Nat
  | .lt => 0
  | .le => 1
  | .gt => 2
  | .ge => 3
  | .eq => 4
  | .ne => 5

@[simp]
theorem rank_inj (left right : Comparator) : left.rank = right.rank ↔ left = right := by
  cases left <;> cases right <;> simp [rank]

end Comparator

end Rulebook
