import Rulebook.Cartesian
import Mathlib.Data.List.Forall2
import Mathlib.Data.List.Lex

/-!
# The order of combinations

A combination is described by the places of its elements in the lists they are chosen from. Two
elements of one list that happen to be equal give two combinations. Combinations are ordered like
the lists of their places, lexicographically, so that the place in the first list counts most.

Searching finds the answer of the first combination in this order that has one, and reports that
there is none only if no combination has an answer. Listing gives every combination, in this order,
and where the lists have no repetition no combination is listed twice.
-/

namespace Rulebook

variable {α β : Type}

/-- The elements at the given places, one from each list. -/
inductive Choice : List (List α) → List Nat → List α → Prop
  | nil : Choice [] [] []
  | cons {choices : List α} {place : Nat} {choice : α}
      {others : List (List α)} {places : List Nat} {rest : List α} :
      choices[place]? = some choice →
      Choice others places rest →
      Choice (choices :: others) (place :: places) (choice :: rest)

namespace Choice

theorem unique
    {lists : List (List α)} {places : List Nat} {values others : List α}
    (first : Choice lists places values) (second : Choice lists places others) :
    values = others := by
  induction first generalizing others with
  | nil =>
      cases second
      rfl
  | cons found _ inductionHypothesis =>
      cases second with
      | cons foundAgain rest =>
          have sameChoice := Option.some.inj (found.symm.trans foundAgain)
          rw [sameChoice, inductionHypothesis rest]

end Choice

/-- Nothing is found exactly if no combination has an answer. -/
theorem findCombination_eq_none_iff
    (answer? : List α → Option β) (lists : List (List α)) :
    findCombination answer? lists = none ↔
      ∀ places values, Choice lists places values → answer? values = none := by
  induction lists generalizing answer? with
  | nil =>
      constructor
      · intro noAnswer places values choice
        cases choice
        exact noAnswer
      · intro noAnswer
        exact noAnswer [] [] .nil
  | cons choices others inductionHypothesis =>
      rw [findCombination, List.findSome?_eq_none_iff]
      constructor
      · intro noAnswer places values choice
        cases choice with
        | cons found rest =>
            have member := List.mem_of_getElem? found
            exact (inductionHypothesis _).mp (noAnswer _ member) _ _ rest
      · intro noAnswer choice member
        obtain ⟨place, found⟩ := List.mem_iff_getElem?.mp member
        apply (inductionHypothesis _).mpr
        intro places rest restChoice
        exact noAnswer _ _ (.cons found restChoice)

/-- An answer that is found is that of a combination before which none has an answer. -/
theorem exists_choice_of_findCombination
    {answer? : List α → Option β} {lists : List (List α)} {answer : β}
    (found : findCombination answer? lists = some answer) :
    ∃ places values, Choice lists places values ∧ answer? values = some answer ∧
      ∀ earlier others, Choice lists earlier others → earlier < places →
        answer? others = none := by
  induction lists generalizing answer? with
  | nil =>
      refine ⟨[], [], .nil, found, ?_⟩
      intro earlier others _ impossible
      exact absurd impossible (List.not_lt_nil earlier)
  | cons choices others inductionHypothesis =>
      rw [findCombination, List.findSome?_eq_some_iff] at found
      obtain ⟨before, choice, after, split, found, noneBefore⟩ := found
      obtain ⟨places, rest, restChoice, answers, firstRest⟩ := inductionHypothesis found
      have atPlace : choices[before.length]? = some choice := by simp [split]
      refine ⟨before.length :: places, choice :: rest, .cons atPlace restChoice, answers, ?_⟩
      intro earlier values chosen smaller
      cases chosen with
      | @cons _ place other _ earlierPlaces earlierRest otherFound otherRest =>
          rcases List.cons_lt_cons_iff.mp smaller with placeBefore | ⟨samePlace, restBefore⟩
          · have member : other ∈ before := by
              rw [split, List.getElem?_append_left placeBefore] at otherFound
              exact List.mem_of_getElem? otherFound
            exact (findCombination_eq_none_iff _ _).mp (noneBefore other member) _ _ otherRest
          · rw [samePlace, atPlace] at otherFound
            cases otherFound
            exact firstRest _ _ otherRest restBefore

/-- What is found is the answer of the first combination that has one. -/
theorem findCombination_eq_some_iff
    (answer? : List α → Option β) (lists : List (List α)) (answer : β) :
    findCombination answer? lists = some answer ↔
      ∃ places values, Choice lists places values ∧ answer? values = some answer ∧
        ∀ earlier others, Choice lists earlier others → earlier < places →
          answer? others = none := by
  constructor
  · exact exists_choice_of_findCombination
  · rintro ⟨places, values, choice, answers, first⟩
    cases found : findCombination answer? lists with
    | none =>
        rw [(findCombination_eq_none_iff answer? lists).mp found places values choice] at answers
        cases answers
    | some other =>
        obtain ⟨otherPlaces, otherValues, otherChoice, otherAnswers, otherFirst⟩ :=
          exists_choice_of_findCombination found
        rcases lt_trichotomy places otherPlaces with before | same | after
        · rw [otherFirst places values choice before] at answers
          cases answers
        · subst same
          rw [choice.unique otherChoice, otherAnswers] at answers
          exact answers
        · rw [first otherPlaces otherValues otherChoice after] at otherAnswers
          cases otherAnswers

theorem mem_combinations_cons
    {choices : List α} {others : List (List α)} {values : List α} :
    values ∈ combinations (choices :: others) ↔
      ∃ choice ∈ choices, ∃ rest ∈ combinations others, values = choice :: rest := by
  simp only [combinations, List.mem_flatMap, List.mem_map, eq_comm]

/-- A combination takes one element from each list. -/
theorem mem_combinations_iff {lists : List (List α)} {values : List α} :
    values ∈ combinations lists ↔
      List.Forall₂ (fun value choices => value ∈ choices) values lists := by
  induction lists generalizing values with
  | nil => rw [combinations, List.mem_singleton, List.forall₂_nil_right_iff]
  | cons choices others inductionHypothesis =>
      rw [mem_combinations_cons, List.forall₂_cons_right_iff]
      constructor
      · rintro ⟨choice, member, rest, restMember, rfl⟩
        exact ⟨choice, rest, member, inductionHypothesis.mp restMember, rfl⟩
      · rintro ⟨choice, rest, member, restMembers, rfl⟩
        exact ⟨choice, member, rest, inductionHypothesis.mpr restMembers, rfl⟩

private theorem exists_choice_of_forall₂
    {lists : List (List α)} {values : List α}
    (members : List.Forall₂ (fun value choices => value ∈ choices) values lists) :
    ∃ places, Choice lists places values := by
  induction members with
  | nil => exact ⟨[], .nil⟩
  | cons member _ inductionHypothesis =>
      obtain ⟨place, atPlace⟩ := List.mem_iff_getElem?.mp member
      obtain ⟨places, choice⟩ := inductionHypothesis
      exact ⟨place :: places, .cons atPlace choice⟩

/-- Choosing a wanted element from each list gives a combination. -/
theorem exists_combination
    {listed : β → List α → Prop} {wanted : β → α → Prop}
    {owners : List β} {lists : List (List α)} (owned : List.Forall₂ listed owners lists)
    (each : ∀ owner ∈ owners, ∀ choices, listed owner choices →
      ∃ choice ∈ choices, wanted owner choice) :
    ∃ values ∈ combinations lists, List.Forall₂ wanted owners values := by
  induction owned with
  | nil => exact ⟨[], List.mem_singleton_self _, .nil⟩
  | cons isListed _ inductionHypothesis =>
      rw [List.forall_mem_cons] at each
      obtain ⟨choice, member, isWanted⟩ := each.1 _ isListed
      obtain ⟨rest, restMember, restWanted⟩ := inductionHypothesis each.2
      exact ⟨choice :: rest, mem_combinations_cons.mpr ⟨choice, member, rest, restMember, rfl⟩,
        .cons isWanted restWanted⟩

/-- What holds of every element of the lists holds along a combination. -/
theorem forall₂_of_combination
    {listed : β → List α → Prop} {known : β → α → Prop}
    {owners : List β} {lists : List (List α)} (owned : List.Forall₂ listed owners lists)
    (each : ∀ owner ∈ owners, ∀ choices, listed owner choices →
      ∀ choice ∈ choices, known owner choice)
    {values : List α} (member : values ∈ combinations lists) :
    List.Forall₂ known owners values := by
  induction owned generalizing values with
  | nil =>
      rw [List.mem_singleton.mp member]
      exact .nil
  | cons isListed _ inductionHypothesis =>
      rw [List.forall_mem_cons] at each
      obtain ⟨choice, choiceMember, rest, restMember, rfl⟩ := mem_combinations_cons.mp member
      exact .cons (each.1 _ isListed choice choiceMember)
        (inductionHypothesis each.2 restMember)

/-- There are no combinations exactly if one of the lists is empty. -/
theorem combinations_eq_nil_iff (lists : List (List α)) :
    combinations lists = [] ↔ [] ∈ lists := by
  induction lists with
  | nil => simp [combinations]
  | cons choices others inductionHypothesis =>
      rw [List.mem_cons, ← inductionHypothesis, combinations, List.flatMap_eq_nil_iff]
      constructor
      · intro noTails
        cases choices with
        | nil => exact .inl rfl
        | cons choice _ => exact .inr (List.map_eq_nil_iff.mp (noTails choice List.mem_cons_self))
      · rintro (empty | noTails) choice member
        · rw [← empty] at member
          cases member
        · rw [noTails, List.map_nil]

/-- One combination comes before another: at the first list where their places differ, its place is
the smaller one. -/
def Earlier (lists : List (List α)) (first second : List α) : Prop :=
  ∃ places later, Choice lists places first ∧ Choice lists later second ∧ places < later

private theorem pairwise_places (elements : List α) :
    elements.Pairwise fun first second =>
      ∃ place later : Nat, elements[place]? = some first ∧ elements[later]? = some second ∧
        place < later := by
  rw [List.pairwise_iff_getElem]
  intro place later inBounds laterInBounds before
  exact ⟨place, later, List.getElem?_eq_getElem inBounds, List.getElem?_eq_getElem laterInBounds,
    before⟩

/-- The combinations are listed in the order of their places. -/
theorem combinations_ordered (lists : List (List α)) :
    (combinations lists).Pairwise (Earlier lists) := by
  induction lists with
  | nil => exact List.pairwise_singleton _ _
  | cons choices others inductionHypothesis =>
      have chosen : ∀ rest ∈ combinations others, ∃ places, Choice others places rest :=
        fun rest member => exists_choice_of_forall₂ (mem_combinations_iff.mp member)
      rw [combinations, List.pairwise_flatMap]
      constructor
      · intro choice member
        obtain ⟨place, atPlace⟩ := List.mem_iff_getElem?.mp member
        rw [List.pairwise_map]
        apply inductionHypothesis.imp
        rintro first second ⟨places, later, firstChoice, secondChoice, before⟩
        exact ⟨place :: places, place :: later, .cons atPlace firstChoice,
          .cons atPlace secondChoice, List.cons_lt_cons_iff.mpr (.inr ⟨rfl, before⟩)⟩
      · apply (pairwise_places choices).imp
        rintro first second ⟨place, later, atPlace, atLater, before⟩ values isFirst others isSecond
        obtain ⟨rest, restMember, rfl⟩ := List.mem_map.mp isFirst
        obtain ⟨otherRest, otherMember, rfl⟩ := List.mem_map.mp isSecond
        obtain ⟨places, restChoice⟩ := chosen rest restMember
        obtain ⟨otherPlaces, otherChoice⟩ := chosen otherRest otherMember
        exact ⟨place :: places, later :: otherPlaces, .cons atPlace restChoice,
          .cons atLater otherChoice, List.cons_lt_cons_iff.mpr (.inl before)⟩

/-- In lists without repetition a combination has one description only. -/
theorem Choice.places_unique
    {lists : List (List α)} (distinct : ∀ choices ∈ lists, choices.Nodup)
    {places others : List Nat} {values : List α}
    (first : Choice lists places values) (second : Choice lists others values) :
    places = others := by
  induction first generalizing others with
  | nil =>
      cases second
      rfl
  | cons atPlace _ inductionHypothesis =>
      rw [List.forall_mem_cons] at distinct
      cases second with
      | cons atOther rest =>
          have inBounds := (List.getElem?_eq_some_iff.mp atPlace).1
          have samePlace :=
            (List.getElem?_inj inBounds distinct.1).mp (atPlace.trans atOther.symm)
          rw [samePlace, inductionHypothesis distinct.2 rest]

theorem combinations_nodup
    {lists : List (List α)} (distinct : ∀ choices ∈ lists, choices.Nodup) :
    (combinations lists).Nodup := by
  apply (combinations_ordered lists).imp
  rintro first second ⟨places, later, firstChoice, secondChoice, before⟩ rfl
  rw [firstChoice.places_unique distinct secondChoice] at before
  exact absurd before (lt_irrefl later)

@[simp]
theorem length_combinations_cons (choices : List α) (others : List (List α)) :
    (combinations (choices :: others)).length =
      choices.length * (combinations others).length := by
  induction choices with
  | nil => simp [combinations]
  | cons choice rest inductionHypothesis =>
      simp only [combinations, List.flatMap_cons, List.length_append, List.length_map,
        List.length_cons] at inductionHypothesis ⊢
      rw [inductionHypothesis, Nat.succ_mul, Nat.add_comm]

/-- Before a combination stand those with an earlier choice from the first list, as many for each
as there are combinations of the others. -/
theorem getElem?_combinations_cons
    {choices : List α} {others : List (List α)} {place offset : Nat} {choice : α} {rest : List α}
    (atPlace : choices[place]? = some choice)
    (atOffset : (combinations others)[offset]? = some rest) :
    (combinations (choices :: others))[place * (combinations others).length + offset]? =
      some (choice :: rest) := by
  have inBounds : offset < (combinations others).length :=
    (List.getElem?_eq_some_iff.mp atOffset).1
  have ofChoice : ∀ head : α, ((combinations others).map (head :: ·))[offset]? =
      some (head :: rest) := by
    intro head
    rw [List.getElem?_map, atOffset, Option.map_some]
  induction choices generalizing place with
  | nil => cases atPlace
  | cons head remaining inductionHypothesis =>
      rw [combinations, List.flatMap_cons]
      cases place with
      | zero =>
          cases atPlace
          rw [Nat.zero_mul, Nat.zero_add, List.getElem?_append_left (by simpa using inBounds)]
          exact ofChoice choice
      | succ previous =>
          have skipped : (previous + 1) * (combinations others).length + offset =
              ((combinations others).map (head :: ·)).length +
                (previous * (combinations others).length + offset) := by
            rw [List.length_map, Nat.succ_mul]
            omega
          rw [skipped, List.getElem?_append_right (Nat.le_add_right _ _), Nat.add_sub_cancel_left]
          exact inductionHypothesis atPlace

end Rulebook
