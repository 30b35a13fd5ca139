/-!
# First occurrences

The elements of a list without repetition, each at the place where it first occurs.
-/

namespace Rulebook

def firstOccurrences {α : Type} [DecidableEq α] : List α → List α
  | [] => []
  | first :: rest => first :: (firstOccurrences rest).filter (· ≠ first)

end Rulebook
