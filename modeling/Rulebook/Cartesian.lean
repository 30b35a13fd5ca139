/-!
# Combinations

The ways of choosing one element from each of several lists, in lexicographic order: the choice
from the first list varies slowest.
-/

namespace Rulebook

variable {α β : Type}

def combinations : List (List α) → List (List α)
  | [] => [[]]
  | choices :: others =>
      let tails := combinations others
      choices.flatMap fun choice => tails.map (choice :: ·)

/-- The first answer that a combination gives, without listing the combinations. -/
def findCombination (answer? : List α → Option β) : List (List α) → Option β
  | [] => answer? []
  | choices :: others =>
      choices.findSome? fun choice => findCombination (fun tail => answer? (choice :: tail)) others

private theorem findSome?_flatMap (f : α → List β) {γ : Type} (answer? : β → Option γ)
    (elements : List α) :
    (elements.flatMap f).findSome? answer? =
      elements.findSome? fun element => (f element).findSome? answer? := by
  induction elements with
  | nil => rfl
  | cons element rest inductionHypothesis =>
      rw [List.flatMap_cons, List.findSome?_append, inductionHypothesis, List.findSome?_cons]
      cases (f element).findSome? answer? <;> rfl

/-- Searching finds the answer of the first combination that has one. -/
theorem findCombination_eq (answer? : List α → Option β) (choices : List (List α)) :
    findCombination answer? choices = (combinations choices).findSome? answer? := by
  induction choices generalizing answer? with
  | nil => simp [findCombination, combinations]
  | cons first others inductionHypothesis =>
      simp only [findCombination, combinations, findSome?_flatMap, inductionHypothesis,
        List.findSome?_map]
      rfl

end Rulebook
