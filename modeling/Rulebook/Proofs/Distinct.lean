import Rulebook.Distinct
import Rulebook.SortedSet
import Rulebook.Proofs.Order
import Mathlib.Data.List.Basic
import Mathlib.Data.List.Sort

/-!
# Lists without repetition

Sorting a list into a set and dropping all but the first occurrences both keep the members of the
list and leave none of them twice.
-/

namespace Rulebook

/-- Dropping repetitions keeps the members. -/
@[simp]
theorem mem_firstOccurrences {α : Type} [DecidableEq α] (tested : α) (elements : List α) :
    tested ∈ firstOccurrences elements ↔ tested ∈ elements := by
  induction elements with
  | nil => rfl
  | cons first rest inductionHypothesis =>
      rw [firstOccurrences, List.mem_cons, List.mem_cons, List.mem_filter, inductionHypothesis]
      by_cases same : tested = first
      · simp [same]
      · simp [same]

/-- A search finds the same element whether or not repetitions are dropped. -/
@[simp]
theorem find?_firstOccurrences {α : Type} [DecidableEq α] (sought : α → Bool) (elements : List α) :
    (firstOccurrences elements).find? sought = elements.find? sought := by
  induction elements with
  | nil => rfl
  | cons first rest inductionHypothesis =>
      rw [firstOccurrences, List.find?_cons, List.find?_cons]
      cases isFirst : sought first with
      | true => rfl
      | false =>
          have others : (fun element => decide (decide (element ≠ first) = true ∧
              sought element = true)) = sought := by
            funext element
            by_cases same : element = first
            · simp [same, isFirst]
            · simp [same]
          rw [List.find?_filter, others]
          exact inductionHypothesis

/-- First occurrences stand in the order in which the list first names them. -/
theorem firstOccurrences_pairwise {α : Type} [DecidableEq α] (elements : List α) :
    (firstOccurrences elements).Pairwise fun earlier later =>
      elements.idxOf earlier < elements.idxOf later := by
  induction elements with
  | nil => exact .nil
  | cons first rest inductionHypothesis =>
      have afterFirst : ∀ later ∈ (firstOccurrences rest).filter (· ≠ first),
          (first :: rest).idxOf later = rest.idxOf later + 1 := by
        intro later member
        have different : first ≠ later := by
          have kept := (List.mem_filter.mp member).2
          exact (of_decide_eq_true kept).symm
        exact List.idxOf_cons_ne _ different
      rw [firstOccurrences, List.pairwise_cons]
      constructor
      · intro later member
        rw [List.idxOf_cons_self, afterFirst later member]
        exact Nat.succ_pos _
      · refine (inductionHypothesis.filter _).imp_of_mem ?_
        intro earlier later earlierMember laterMember before
        rw [afterFirst earlier earlierMember, afterFirst later laterMember]
        exact Nat.succ_lt_succ before

/-- No element occurs twice among the first occurrences. -/
@[simp]
theorem firstOccurrences_nodup {α : Type} [DecidableEq α] (elements : List α) :
    (firstOccurrences elements).Nodup := by
  apply (firstOccurrences_pairwise elements).imp
  intro earlier later before same
  rw [same] at before
  exact Nat.lt_irrefl _ before

/-- Where nothing is repeated, nothing is dropped. -/
theorem firstOccurrences_of_nodup {α : Type} [DecidableEq α] {elements : List α}
    (distinct : elements.Nodup) : firstOccurrences elements = elements := by
  induction distinct with
  | nil => rfl
  | @cons first rest apart _ inductionHypothesis =>
      have kept : rest.filter (· ≠ first) = rest := by
        apply List.filter_eq_self.mpr
        intro later member
        exact decide_eq_true (apart later member).symm
      rw [firstOccurrences, inductionHypothesis, kept]

namespace SortedSet

variable {α : Type} {cmp : α → α → Ordering}

theorem mem_insert_iff
    (lawful : ∀ left right, cmp left right = .eq ↔ left = right)
    (element tested : α) (elements : List α) :
    tested ∈ insert cmp element elements ↔ tested = element ∨ tested ∈ elements := by
  induction elements with
  | nil => simp [insert]
  | cons head rest inductionHypothesis =>
      rw [insert]
      cases order : cmp element head with
      | lt => simp
      | eq =>
          have same : element = head := (lawful element head).mp order
          simp [same]
      | gt =>
          simp only [List.mem_cons, inductionHypothesis]
          tauto

/-- Sorting into a set keeps the members. -/
theorem mem_ofList_iff
    (lawful : ∀ left right, cmp left right = .eq ↔ left = right)
    (tested : α) (elements : List α) :
    tested ∈ ofList cmp elements ↔ tested ∈ elements := by
  induction elements with
  | nil => simp [ofList]
  | cons head rest inductionHypothesis =>
      change tested ∈ insert cmp head (ofList cmp rest) ↔ _
      rw [mem_insert_iff lawful, inductionHypothesis, List.mem_cons]

private theorem insert_ascending
    (linear : LinearComparison cmp)
    (element : α) {elements : List α}
    (ascending : elements.Pairwise fun left right => cmp left right = .lt) :
    (insert cmp element elements).Pairwise fun left right => cmp left right = .lt := by
  induction ascending with
  | nil => exact List.pairwise_singleton _ _
  | @cons head rest before ascending inductionHypothesis =>
      rw [insert]
      split
      · rename_i order
        refine .cons ?_ (.cons before ascending)
        rw [List.forall_mem_cons]
        exact ⟨order, fun later member => linear.lt_trans order (before later member)⟩
      · exact .cons before ascending
      · rename_i order
        refine .cons ?_ inductionHypothesis
        intro later member
        rcases (mem_insert_iff linear.eq_iff element later rest).mp member with rfl | member
        · rw [linear.swap, order]
          rfl
        · exact before later member

/-- A sorted set ascends, whatever the order of the list. -/
theorem ofList_ascending
    (linear : LinearComparison cmp)
    (elements : List α) :
    (ofList cmp elements).Pairwise fun left right => cmp left right = .lt := by
  induction elements with
  | nil => exact .nil
  | cons head rest inductionHypothesis =>
      exact insert_ascending linear head inductionHypothesis

/-- A list that ascends is the sorted set of every list with the same members. -/
theorem ofList_eq_of_mem_iff
    (linear : LinearComparison cmp)
    {elements sorted : List α}
    (ascending : sorted.Pairwise fun left right => cmp left right = .lt)
    (sameMembers : ∀ tested, tested ∈ elements ↔ tested ∈ sorted) :
    ofList cmp elements = sorted := by
  have irreflexive : Std.Irrefl fun left right => cmp left right = .lt := by
    constructor
    intro element before
    rw [(linear.eq_iff element element).mpr rfl] at before
    cases before
  have antisymmetric : Std.Antisymm fun left right => cmp left right = .lt := by
    constructor
    intro left right before after
    rw [linear.swap, before] at after
    cases after
  apply (ofList_ascending linear elements).eq_of_mem_iff ascending
  intro tested
  rw [mem_ofList_iff linear.eq_iff, sameMembers]

theorem ofList_nodup
    (linear : LinearComparison cmp)
    (elements : List α) : (ofList cmp elements).Nodup := by
  apply (ofList_ascending linear elements).imp
  intro left right before same
  rw [(linear.eq_iff left right).mpr same] at before
  cases before

end SortedSet

end Rulebook
