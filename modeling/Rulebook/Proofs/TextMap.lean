import Rulebook.TextMap
import Mathlib.Data.List.Nodup

/-!
# Laws of maps from texts

Inserting an entry changes what is found under its key and nothing else, so that a map built from
a list of entries finds the last entry of each key. Two maps in which the same is found under
every key are equal.
-/

namespace Rulebook.TextMap

variable {α : Type}

theorem keyBefore_irrefl (entry : String × α) : ¬ KeyBefore entry entry := by
  intro before
  have same : Text.compareText entry.1 entry.1 = .eq := (Text.compareText_eq_iff _ _).mpr rfl
  rw [KeyBefore, same] at before
  cases before

private theorem keyBefore_asymm {entry other : String × α} (before : KeyBefore entry other) :
    ¬ KeyBefore other entry := by
  intro after
  exact keyBefore_irrefl entry (Text.compareText_lt_trans before after)

/-- The first entry is found under its key and hides no other. -/
theorem lookup_cons_eq_ite (entry : String × α) (rest : List (String × α)) (tested : String) :
    (entry :: rest).lookup tested =
      if tested = entry.1 then some entry.2 else rest.lookup tested := by
  rw [List.lookup_cons]
  by_cases same : tested = entry.1
  · simp [same]
  · rw [if_neg same, beq_eq_false_iff_ne.mpr same]

theorem mem_of_lookup {entries : List (String × α)} {key : String} {value : α}
    (found : entries.lookup key = some value) : (key, value) ∈ entries := by
  obtain ⟨before, after, split, _⟩ := List.lookup_eq_some_iff.mp found
  rw [split]
  exact List.mem_append_right before List.mem_cons_self

/-- Every entry is found where no key stands twice. -/
theorem lookup_of_mem
    {entries : List (String × α)} (distinct : (entries.map Prod.fst).Nodup)
    {key : String} {value : α} (member : (key, value) ∈ entries) :
    entries.lookup key = some value := by
  induction entries with
  | nil => cases member
  | cons entry rest inductionHypothesis =>
      rw [List.map_cons, List.nodup_cons] at distinct
      rw [lookup_cons_eq_ite]
      rcases List.mem_cons.mp member with same | later
      · rw [← same, if_pos rfl]
      · have different : key ≠ entry.1 := by
          rintro rfl
          exact distinct.1 (List.mem_map.mpr ⟨_, later, rfl⟩)
        rw [if_neg different]
        exact inductionHypothesis distinct.2 later

private theorem lookup_insertEntry
    (key tested : String) (value : α) (entries : List (String × α)) :
    (insertEntry key value entries).lookup tested =
      if tested = key then some value else entries.lookup tested := by
  induction entries with
  | nil => exact lookup_cons_eq_ite (key, value) [] tested
  | cons head rest inductionHypothesis =>
      obtain ⟨other, old⟩ := head
      rw [insertEntry]
      cases order : Text.compareText key other with
      | lt => exact lookup_cons_eq_ite (key, value) ((other, old) :: rest) tested
      | eq =>
          have sameKey : key = other := (Text.compareText_eq_iff _ _).mp order
          by_cases same : tested = key
          · simp [same]
          · simp [lookup_cons_eq_ite, ← sameKey, same]
      | gt =>
          have differentKey : key ≠ other := by
            intro sameKey
            rw [(Text.compareText_eq_iff _ _).mpr sameKey] at order
            cases order
          by_cases same : tested = other
          · simp [same, differentKey.symm]
          · simp [lookup_cons_eq_ite, same, inductionHypothesis]

/-- Inserting an entry changes what is found under its key and nothing else. -/
@[simp]
theorem get?_insert (map : TextMap α) (key tested : String) (value : α) :
    (map.insert key value).get? tested =
      if tested = key then some value else map.get? tested :=
  lookup_insertEntry key tested value map.entries

/-- A map built from a list finds the last entry of each key. -/
theorem get?_ofList (entries : List (String × α)) (tested : String) :
    (ofList entries).get? tested = entries.reverse.lookup tested := by
  have accumulated :
      ∀ (rest : List (String × α)) (map : TextMap α),
        (rest.foldl (fun map (entry : String × α) => map.insert entry.1 entry.2) map).get?
            tested =
          (rest.reverse.lookup tested).or (map.get? tested) := by
    intro rest
    induction rest with
    | nil => simp
    | cons entry rest inductionHypothesis =>
        intro map
        rw [List.foldl_cons, inductionHypothesis, get?_insert, List.reverse_cons,
          List.lookup_append, Option.or_assoc]
        congr 1
        rw [lookup_cons_eq_ite]
        split <;> rfl
  have fromEmpty := accumulated entries {}
  rw [show ({} : TextMap α).get? tested = none from rfl, Option.or_none] at fromEmpty
  exact fromEmpty

/-- A map built from entries of different keys finds just these entries. -/
theorem get?_ofList_eq_some_iff
    {entries : List (String × α)} (distinct : (entries.map Prod.fst).Nodup)
    {key : String} {value : α} :
    (ofList entries).get? key = some value ↔ (key, value) ∈ entries := by
  have reversed : (entries.reverse.map Prod.fst).Nodup := by
    rw [List.map_reverse, List.nodup_reverse]
    exact distinct
  rw [get?_ofList]
  constructor
  · intro found
    exact List.mem_reverse.mp (mem_of_lookup found)
  · intro member
    exact lookup_of_mem reversed (List.mem_reverse.mpr member)

/-- The entries of a map are what is found in it. -/
@[simp]
theorem mem_entries_iff (map : TextMap α) (key : String) (value : α) :
    (key, value) ∈ map.entries ↔ map.get? key = some value := by
  obtain ⟨entries, ascending⟩ := map
  change (key, value) ∈ entries ↔ entries.lookup key = some value
  induction ascending with
  | nil => simp
  | @cons head rest before _ inductionHypothesis =>
      obtain ⟨other, old⟩ := head
      rw [List.mem_cons, lookup_cons_eq_ite]
      by_cases same : key = other
      · have notLater : (key, value) ∉ rest := by
          intro member
          have smaller := before (key, value) member
          rw [same] at smaller
          exact keyBefore_irrefl (other, value) smaller
        rw [if_pos same, or_iff_left notLater, same]
        simp [eq_comm]
      · rw [if_neg same, inductionHypothesis]
        simp [same]

/-- Two maps in which the same is found under every key are equal. -/
theorem ext_get? {map other : TextMap α}
    (same : ∀ key, map.get? key = other.get? key) :
    map = other := by
  have sameMembers : ∀ entry, entry ∈ map.entries ↔ entry ∈ other.entries := by
    intro entry
    rw [mem_entries_iff, mem_entries_iff, same]
  have nodup : ∀ tested : TextMap α, tested.entries.Nodup := by
    intro tested
    apply tested.ascending.imp
    intro entry later before equality
    rw [equality] at before
    exact keyBefore_irrefl later before
  have permutation : map.entries.Perm other.entries :=
    (List.perm_ext_iff_of_nodup (nodup map) (nodup other)).mpr sameMembers
  have sameEntries : map.entries = other.entries :=
    permutation.eq_of_pairwise
      (fun _ _ _ _ before after => absurd after (keyBefore_asymm before))
      map.ascending other.ascending
  obtain ⟨entries, _⟩ := map
  obtain ⟨others, _⟩ := other
  congr

/-- The order of entries of different keys does not matter. -/
theorem ofList_perm
    {entries others : List (String × α)} (distinct : (entries.map Prod.fst).Nodup)
    (permuted : entries.Perm others) : ofList entries = ofList others := by
  have othersDistinct : (others.map Prod.fst).Nodup :=
    (permuted.map Prod.fst).nodup_iff.mp distinct
  apply ext_get?
  intro key
  apply Option.ext
  intro value
  rw [get?_ofList_eq_some_iff distinct, get?_ofList_eq_some_iff othersDistinct, permuted.mem_iff]

end Rulebook.TextMap
