import Rulebook.Text.Order

/-!
# Maps from texts

A finite map from texts, its entries kept in the order of their keys.
-/

namespace Rulebook

/-- The order of the entries of a map. -/
def TextMap.KeyBefore {α : Type} (entry other : String × α) : Prop :=
  Text.compareText entry.1 other.1 = .lt

structure TextMap (α : Type) where
  entries : List (String × α) := []
  /-- No key occurs twice. -/
  ascending : entries.Pairwise TextMap.KeyBefore := by exact List.Pairwise.nil
deriving DecidableEq, Repr

namespace TextMap

variable {α : Type}

/-- Puts an entry in its place, replacing one with the same key. -/
def insertEntry (key : String) (value : α) : List (String × α) → List (String × α)
  | [] => [(key, value)]
  | (other, old) :: rest =>
      match Text.compareText key other with
      | .lt => (key, value) :: (other, old) :: rest
      | .eq => (key, value) :: rest
      | .gt => (other, old) :: insertEntry key value rest

private theorem mem_insertEntry {key : String} {value : α} {entry : String × α}
    {entries : List (String × α)} (member : entry ∈ insertEntry key value entries) :
    entry = (key, value) ∨ entry ∈ entries := by
  induction entries with
  | nil => simpa [insertEntry] using member
  | cons head rest inductionHypothesis =>
      rw [insertEntry] at member
      split at member
      · simpa using member
      · simp only [List.mem_cons] at member ⊢
        exact member.imp_right .inr
      · simp only [List.mem_cons] at member ⊢
        rcases member with same | member
        · exact .inr (.inl same)
        · exact (inductionHypothesis member).imp_right .inr

private theorem insertEntry_ascending {key : String} {value : α} {entries : List (String × α)}
    (ascending : entries.Pairwise KeyBefore) :
    (insertEntry key value entries).Pairwise KeyBefore := by
  induction ascending with
  | nil => exact List.pairwise_singleton _ _
  | @cons head rest before ascending inductionHypothesis =>
      rw [insertEntry]
      split
      · rename_i order
        refine .cons (fun entry member => ?_) (.cons before ascending)
        rcases List.mem_cons.mp member with rfl | member
        · exact order
        · exact Text.compareText_lt_trans order (before entry member)
      · rename_i order
        have same : key = head.1 := (Text.compareText_eq_iff _ _).mp order
        refine .cons (fun entry member => ?_) ascending
        rw [same]
        exact before entry member
      · rename_i order
        refine .cons (fun entry member => ?_) inductionHypothesis
        rcases mem_insertEntry member with rfl | member
        · show Text.compareText _ _ = _
          rw [Text.compareText_swap, order]
          rfl
        · exact before entry member

def insert (map : TextMap α) (key : String) (value : α) : TextMap α :=
  ⟨insertEntry key value map.entries, insertEntry_ascending map.ascending⟩

/-- The map of the given entries, a later one replacing an earlier one with the same key. -/
def ofList (entries : List (String × α)) : TextMap α :=
  entries.foldl (fun map (key, value) => map.insert key value) {}

def get? (map : TextMap α) (key : String) : Option α := map.entries.lookup key

def keys (map : TextMap α) : List String := map.entries.map (·.1)

end TextMap

end Rulebook
