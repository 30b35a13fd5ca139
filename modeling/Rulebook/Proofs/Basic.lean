import Rulebook.Text.Integer
import Mathlib.Data.Int.Order.Basic
import Mathlib.Data.List.Forall2

/-!
# Outcomes, lists and words

Facts about the types that the library computes with: outcomes that may be errors, lists that are
read or chosen element by element, and numbers that fit a word.
-/

namespace Rulebook

section Outcomes

variable {ε α β : Type}

@[simp]
theorem toOption_eq_some_iff {result : Except ε α} {value : α} :
    result.toOption = some value ↔ result = .ok value := by
  cases result <;> simp [Except.toOption]

theorem toOption_eq_none_iff {result : Except ε α} :
    result.toOption = none ↔ ∃ error, result = .error error := by
  cases result <;> simp [Except.toOption]

theorem exists_ok_of_map_eq_ok
    {f : α → β} {outcome : Except ε α} {result : β}
    (mapped : outcome.map f = .ok result) : ∃ value, outcome = .ok value ∧ f value = result := by
  cases outcome with
  | error _ => cases mapped
  | ok value => exact ⟨value, rfl, Except.ok.inj mapped⟩

@[simp]
theorem map_eq_error_iff {f : α → β} {outcome : Except ε α} {error : ε} :
    outcome.map f = .error error ↔ outcome = .error error := by
  cases outcome <;> simp [Except.map]

end Outcomes

section Lists

variable {α β : Type}

theorem exists_mem_zip
    {elements : List α} {values : List β}
    (sameLength : elements.length = values.length) {element : α} (member : element ∈ elements) :
    ∃ value, (element, value) ∈ elements.zip values := by
  have firsts : (elements.zip values).map Prod.fst = elements :=
    List.map_fst_zip (Nat.le_of_eq sameLength)
  rw [← firsts] at member
  obtain ⟨⟨_, value⟩, paired, rfl⟩ := List.mem_map.mp member
  exact ⟨value, paired⟩

/-- A partial map over a list succeeds with the images of the elements, one by one. -/
theorem mapM_eq_some_iff (f : α → Option β) (elements : List α) (images : List β) :
    elements.mapM f = some images ↔
      List.Forall₂ (fun element image => f element = some image) elements images := by
  induction elements generalizing images with
  | nil => simp [eq_comm]
  | cons element rest inductionHypothesis =>
      rw [List.mapM_cons, List.forall₂_cons_left_iff]
      cases imaged : f element with
      | none => simp
      | some image =>
          simp only [← inductionHypothesis]
          cases rest.mapM f with
          | none => simp
          | some others => simp [eq_comm]

/-- A run of a class is cut off exactly where what follows does not go on with the class. -/
theorem takeWhile_append_delimited
    (p : α → Bool) (word rest : List α)
    (inside : ∀ c ∈ word, p c = true) (outside : ∀ c, rest.head? = some c → p c = false) :
    (word ++ rest).takeWhile p = word ∧ (word ++ rest).dropWhile p = rest := by
  rw [List.takeWhile_append_of_pos inside, List.dropWhile_append_of_pos inside]
  cases rest with
  | nil => simp
  | cons c rest =>
      have stops : p c = false := outside c rfl
      simp [stops]

end Lists

theorem Text.int64?_eq_some_iff {n : Int} {word : Int64} :
    Text.int64? n = some word ↔ word.toInt = n := by
  rw [Text.int64?]
  split
  · rename_i inBounds
    have exact : (Int64.ofInt n).toInt = n := by
      rw [Text.int64Min, Text.int64Max] at inBounds
      exact Int64.toInt_ofInt_of_le inBounds.1 (by omega)
    rw [Option.some.injEq, ← Int64.toInt_inj, exact, eq_comm]
  · rename_i outOfBounds
    have lower := word.le_toInt
    have upper := word.toInt_lt
    simp only [reduceCtorEq, false_iff]
    rintro rfl
    exact outOfBounds ⟨lower, by rw [Text.int64Max]; omega⟩

/-- A number between two words is a word. -/
theorem toInt_ofInt_between
    {min max : Int64} {number : Int} (lower : min.toInt ≤ number) (upper : number ≤ max.toInt) :
    (Int64.ofInt number).toInt = number :=
  Int64.toInt_ofInt_of_le (le_trans min.le_toInt lower) (lt_of_le_of_lt upper max.toInt_lt)

/-- Only the least word has a magnitude that is not a word. -/
theorem toInt_neg_of_ne_least {word : Int64} (notLeast : word ≠ Int64.minValue) :
    (-word).toInt = -word.toInt := by
  have least : Int64.minValue.toInt = -9223372036854775808 := by decide
  have different : word.toInt ≠ -9223372036854775808 := by
    intro isLeast
    rw [← least] at isLeast
    exact notLeast (Int64.toInt_inj.mp isLeast)
  have lower := word.le_toInt
  have upper := word.toInt_lt
  rw [Int64.toInt_neg, Int.bmod_eq_of_le (by omega) (by omega)]

end Rulebook
