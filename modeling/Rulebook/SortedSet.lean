/-!
# Sorted lists without repetition

A set is kept as a list that ascends strictly in a given order.
-/

namespace Rulebook.SortedSet

variable {α : Type}

/-- Puts an element in its place, unless it is there already. -/
def insert (cmp : α → α → Ordering) (element : α) : List α → List α
  | [] => [element]
  | head :: rest =>
      match cmp element head with
      | .lt => element :: head :: rest
      | .eq => head :: rest
      | .gt => head :: insert cmp element rest

/-- The elements of a list in order, each once. -/
def ofList (cmp : α → α → Ordering) (elements : List α) : List α :=
  elements.foldr (insert cmp) []

end Rulebook.SortedSet
