import Rulebook.Proofs.Combinations

/-!
# Combinations by an odometer

Combinations can also be listed without building them from the back. An odometer shows one place
for each list and starts at zero; the last place turns fastest, and a place that has gone round
lets the place before it move on. Reading off the elements at the places shown, until no place can
move on, gives the combinations in their order.
-/

namespace Rulebook

variable {α β : Type}

/-- Every place is the first. -/
def startingPlaces (radices : List Nat) : List Nat := radices.map fun _ => 0

/-- The places that follow, unless all have gone round. -/
def advance? : List Nat → List Nat → Option (List Nat)
  | radix :: radices, place :: places =>
      match advance? radices places with
      | some following => some (place :: following)
      | none =>
          if place + 1 < radix then some ((place + 1) :: startingPlaces radices) else none
  | _, _ => none

/-- The odometer, at the given places, goes on to show these combinations and then stops. -/
inductive Turns (lists : List (List α)) : List Nat → List (List α) → Prop
  | last {places : List Nat} {values : List α} :
      Choice lists places values →
      advance? (lists.map List.length) places = none →
      Turns lists places [values]
  | next {places following : List Nat} {values : List α} {listed : List (List α)} :
      Choice lists places values →
      advance? (lists.map List.length) places = some following →
      Turns lists following listed →
      Turns lists places (values :: listed)

namespace Turns

/-- Where the odometer starts decides everything that it shows. -/
theorem unique {lists : List (List α)} {places : List Nat} {listed others : List (List α)}
    (turned : Turns lists places listed) (again : Turns lists places others) : listed = others := by
  induction turned generalizing others with
  | last choice stops =>
      cases again with
      | last otherChoice _ => rw [choice.unique otherChoice]
      | next _ goesOn _ =>
          rw [stops] at goesOn
          cases goesOn
  | next choice goesOn _ inductionHypothesis =>
      cases again with
      | last _ stops =>
          rw [stops] at goesOn
          cases goesOn
      | next otherChoice alsoGoesOn rest =>
          cases goesOn.symm.trans alsoGoesOn
          rw [choice.unique otherChoice, inductionHypothesis rest]

section FirstList

variable {choices : List α} {lists : List (List α)} {place : Nat} {choice : α}
  {places : List Nat} {listed : List (List α)}

/-- When the other places have gone round, a place that can move on does, and they start anew. -/
theorem cons_append
    (atPlace : choices[place]? = some choice) (turned : Turns lists places listed)
    (movesOn : place + 1 < choices.length) {later : List (List α)}
    (laterTurned :
      Turns (choices :: lists) ((place + 1) :: startingPlaces (lists.map List.length)) later) :
    Turns (choices :: lists) (place :: places) (listed.map (choice :: ·) ++ later) := by
  induction turned with
  | last rest stops =>
      refine .next (.cons atPlace rest) ?_ laterTurned
      simp [advance?, stops, movesOn]
  | next rest goesOn _ inductionHypothesis =>
      refine .next (.cons atPlace rest) ?_ inductionHypothesis
      simp [advance?, goesOn]

/-- When the other places have gone round, the last place of a list is the end. -/
theorem cons_last
    (atPlace : choices[place]? = some choice) (turned : Turns lists places listed)
    (isLast : choices.length ≤ place + 1) :
    Turns (choices :: lists) (place :: places) (listed.map (choice :: ·)) := by
  induction turned with
  | last rest stops =>
      refine .last (.cons atPlace rest) ?_
      simp [advance?, stops, isLast]
  | next rest goesOn _ inductionHypothesis =>
      refine .next (.cons atPlace rest) ?_ inductionHypothesis
      simp [advance?, goesOn]

end FirstList

/-- The run from a place of the first list on: as many rounds of the other lists as there are
elements left in it. -/
theorem of_suffix {lists : List (List α)}
    (turned : Turns lists (startingPlaces (lists.map List.length)) (combinations lists))
    (before : List α) {rest : List α} (nonempty : rest ≠ []) :
    Turns ((before ++ rest) :: lists)
      (before.length :: startingPlaces (lists.map List.length)) (combinations (rest :: lists)) := by
  induction rest generalizing before with
  | nil => exact absurd rfl nonempty
  | cons choice remaining inductionHypothesis =>
      have atPlace : (before ++ choice :: remaining)[before.length]? = some choice := by simp
      rw [combinations, List.flatMap_cons]
      by_cases exhausted : remaining = []
      · subst exhausted
        rw [List.flatMap_nil, List.append_nil]
        exact cons_last atPlace turned (by simp)
      · have later := inductionHypothesis (before ++ [choice]) exhausted
        rw [List.append_assoc, List.singleton_append, List.length_append] at later
        have moreToCome := List.length_pos_iff.mpr exhausted
        exact cons_append atPlace turned (by simp; omega) later

/-- Where no list is empty, the odometer shows every combination and stops. -/
theorem combinations_of_nonempty {lists : List (List α)} (nonempty : [] ∉ lists) :
    Turns lists (startingPlaces (lists.map List.length)) (combinations lists) := by
  induction lists with
  | nil => exact .last .nil rfl
  | cons choices others inductionHypothesis =>
      rw [List.mem_cons, not_or] at nonempty
      exact of_suffix (inductionHypothesis nonempty.2) [] (Ne.symm nonempty.1)

theorem choice_head {lists : List (List α)} {places : List Nat} {listed : List (List α)}
    (turned : Turns lists places listed) : ∃ values, Choice lists places values := by
  cases turned with
  | last choice _ | next choice _ _ => exact ⟨_, choice⟩

end Turns

private theorem Choice.nil_notMem {lists : List (List α)} {places : List Nat} {values : List α}
    (choice : Choice lists places values) : [] ∉ lists := by
  induction choice with
  | nil => exact List.not_mem_nil
  | cons atPlace _ inductionHypothesis =>
      rw [List.mem_cons, not_or]
      refine ⟨?_, inductionHypothesis⟩
      rintro rfl
      cases atPlace

/-- The odometer shows the combinations, in their order, and it can start exactly where there are
any. -/
theorem turns_iff {lists : List (List α)} {listed : List (List α)} :
    Turns lists (startingPlaces (lists.map List.length)) listed ↔
      [] ∉ lists ∧ listed = combinations lists := by
  constructor
  · intro turned
    obtain ⟨_, choice⟩ := turned.choice_head
    exact ⟨choice.nil_notMem, turned.unique (.combinations_of_nonempty choice.nil_notMem)⟩
  · rintro ⟨nonempty, rfl⟩
    exact .combinations_of_nonempty nonempty

/-- Searching the combinations is testing what the odometer shows, one after another. -/
theorem findCombination_of_turns
    {lists listed : List (List α)}
    (turned : Turns lists (startingPlaces (lists.map List.length)) listed)
    (answer? : List α → Option β) :
    findCombination answer? lists = listed.findSome? answer? := by
  rw [findCombination_eq, (turns_iff.mp turned).2]

end Rulebook
