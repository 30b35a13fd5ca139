import Rulebook.Proofs.Enumeration
import Rulebook.Proofs.Evaluation

/-!
# What the enumeration limit bounds

Before the values of an unknown are listed, the number of assignments to the unknowns up to it is
compared with the limit. This bounds the list of every unknown as long as the unknowns before it
have a value each. An unknown without any admissible value makes the number of assignments zero
from there on, so that nothing bounds the lists behind it.
-/

namespace Rulebook

@[simp]
theorem length_integersBetween (min max : Int64) :
    (integersBetween min max).length = (max.toInt - min.toInt + 1).toNat := by
  rw [integersBetween, List.length_map, List.length_range]

/-- The integers of a range are listed in one way only. -/
theorem eq_integersBetween
    {min max : Int64} {integers : List Int64}
    (ascending : integers.Pairwise fun first second => first.toInt < second.toInt)
    (members : ∀ integer, integer ∈ integers ↔
      min.toInt ≤ integer.toInt ∧ integer.toInt ≤ max.toInt) :
    integers = integersBetween min max := by
  have irreflexive : Std.Irrefl fun first second : Int64 => first.toInt < second.toInt :=
    ⟨fun integer => lt_irrefl integer.toInt⟩
  have antisymmetric : Std.Antisymm fun first second : Int64 => first.toInt < second.toInt :=
    ⟨fun _ _ before after => absurd after (lt_asymm before)⟩
  apply ascending.eq_of_mem_iff (integersBetween_ascending min max)
  intro integer
  rw [members, mem_integersBetween_iff]

/-- The size of an unknown is known exactly if its values can be listed, and counts them. -/
theorem Variable.lists_iff
    {var : Variable} {constraint : Option Constraint} {values : List Value} :
    var.Lists constraint values ↔
      var.size? constraint = some values.length ∧ values = var.admissible constraint := by
  constructor
  · intro lists
    obtain ⟨name, sort, isParameter⟩ := var
    cases sort with
    | bool =>
        cases lists
        exact ⟨rfl, rfl⟩
    | int =>
        match constraint with
        | none | some .boolean => cases lists
        | some (.range none _) | some (.range (some _) none) => cases lists
        | some (.range (some min) (some max)) =>
            obtain ⟨integers, isValues, ascending, members⟩ := lists
            rw [eq_integersBetween ascending members] at isValues
            refine ⟨?_, isValues⟩
            rw [isValues, List.length_map, length_integersBetween]
            rfl
        | some (.oneOf integers) =>
            cases lists
            exact ⟨by rw [List.length_map]; rfl, rfl⟩
  · rintro ⟨sized, isValues⟩
    rw [isValues]
    exact lists_admissible sized

/-- At each list, `total` times the number of choices from the lists up to it is within the
limit. -/
def WithinLimit (limit total : Nat) (lists : List (List Value)) : Prop :=
  ∀ front values back, lists = front ++ values :: back →
    total * ((combinations front).length * values.length) ≤ limit

@[simp]
theorem withinLimit_nil (limit total : Nat) : WithinLimit limit total [] := by
  intro front values back split
  simp at split

/-- One step: the product goes on from the first list. -/
theorem withinLimit_cons_iff {limit total : Nat} {values : List Value} {rest : List (List Value)} :
    WithinLimit limit total (values :: rest) ↔
      total * values.length ≤ limit ∧ WithinLimit limit (total * values.length) rest := by
  constructor
  · intro within
    constructor
    · simpa [combinations] using within [] values rest rfl
    · intro front others back split
      have bounded := within (values :: front) others back (by rw [split, List.cons_append])
      rwa [length_combinations_cons, Nat.mul_assoc, ← Nat.mul_assoc] at bounded
  · rintro ⟨first, within⟩ front others back split
    cases front with
    | nil =>
        injection split with sameHead _
        rw [← sameHead]
        simpa [combinations] using first
    | cons head front =>
        injection split with sameHead sameRest
        have bounded := within front others back sameRest
        rwa [← sameHead, length_combinations_cons, Nat.mul_assoc, ← Nat.mul_assoc]

/-- A product within the limit bounds its last factor, unless an earlier factor is zero. -/
theorem WithinLimit.length_le
    {limit : Nat} {front back : List (List Value)} {values : List Value}
    (within : WithinLimit limit 1 (front ++ values :: back)) (nonempty : [] ∉ front) :
    values.length ≤ limit := by
  have positive : 0 < (combinations front).length := by
    rw [List.length_pos_iff, ne_eq, combinations_eq_nil_iff]
    exact nonempty
  calc values.length
      ≤ (combinations front).length * values.length := Nat.le_mul_of_pos_left _ positive
    _ ≤ limit := by simpa using within front values back rfl

namespace Obligation

/-- The values of all unknowns are listed exactly if they can be and each step stays within the
limit. -/
theorem domainsFrom_eq_ok_iff
    {constraints : TextMap Constraint} {limit total : Nat} {unknowns : List Variable}
    {lists : List (List Value)} :
    domainsFrom constraints limit total unknowns = .ok lists ↔
      List.Forall₂ (fun var values => var.Lists (constraints.get? var.name) values)
        unknowns lists ∧ WithinLimit limit total lists := by
  induction unknowns generalizing total lists with
  | nil =>
      rw [List.forall₂_nil_left_iff, domainsFrom, Except.ok.injEq, eq_comm]
      refine (and_iff_left_of_imp ?_).symm
      intro isEmpty
      rw [isEmpty]
      exact withinLimit_nil limit total
  | cons var rest inductionHypothesis =>
      constructor
      · intro listed
        refine ⟨lists_of_domainsFrom listed, ?_⟩
        simp only [domainsFrom] at listed
        split at listed
        · cases listed
        · rename_i size sized
          split at listed
          · cases listed
          · rename_i bounded
            obtain ⟨others, restListed, isLists⟩ := exists_ok_of_map_eq_ok listed
            have counts := (Variable.lists_iff.mp (Variable.lists_admissible sized)).1
            rw [sized, Option.some.injEq] at counts
            rw [← isLists, withinLimit_cons_iff, ← counts]
            exact ⟨Nat.le_of_not_lt bounded, (inductionHypothesis.mp restListed).2⟩
      · rintro ⟨listed, within⟩
        cases listed with
        | @cons _ values _ others first restListed =>
            rw [withinLimit_cons_iff] at within
            obtain ⟨sized, isValues⟩ := Variable.lists_iff.mp first
            have tail := inductionHypothesis.mpr ⟨restListed, within.2⟩
            simp only [domainsFrom, sized]
            rw [if_neg (Nat.not_lt.mpr within.1), tail, ← isValues]
            rfl

/-- The values of all unknowns are listed exactly if each unknown has finitely many and, at each of
them, the assignments to the unknowns up to it are within the limit. So a list may only be longer
than the limit behind an empty one. -/
theorem domains_within_limit (obligation : Obligation) (limit : Nat) (lists : List (List Value)) :
    (obligation.domains limit = .ok lists ↔
      List.Forall₂ (fun var values => var.Lists (obligation.constraints.get? var.name) values)
        obligation.unknowns lists ∧
      ∀ front values back, lists = front ++ values :: back →
        (combinations front).length * values.length ≤ limit) ∧
    ∀ front values back, obligation.domains limit = .ok lists → lists = front ++ values :: back →
      limit < values.length → [] ∈ front := by
  have listedIff : obligation.domains limit = .ok lists ↔ _ := domainsFrom_eq_ok_iff
  constructor
  · rw [listedIff]
    simp only [WithinLimit, Nat.one_mul]
  · intro front values back listed split long
    by_contra nonempty
    have within := (listedIff.mp listed).2
    rw [split] at within
    exact absurd long (Nat.not_lt.mpr (within.length_le nonempty))

def parcel : Model where
  functionName := "parcel"
  parameters := [⟨"day", .range 0 6⟩, ⟨"weight", .range 0 30⟩]
  rules := [⟨.comparison "weight" .gt (.int 5), .value (.string "van")⟩]

/-- The days form an empty range, and there are twenty-one weights. -/
def parcelConstraints : TextMap Constraint :=
  .ofList [("day", .range (some 5) (some 1)), ("weight", .range (some 0) (some 20))]

def parcelObligation (first second : String) : Obligation where
  functionName := "parcel"
  unknowns := [⟨first, .int, true⟩, ⟨second, .int, true⟩]
  decision :=
    .branch (.comparison "weight" .gt (.int 5)) (.value (.string "van")) (.leaf (.value .none))
  constraints := parcelConstraints
  validOutputs := []

/-- Ten assignments are allowed, and twenty-one weights are listed: they stand behind the days. -/
theorem domains_within_limit_parcel :
    ∃ lists, (parcelObligation "day" "weight").domains 10 = .ok lists ∧
      (∃ values ∈ lists, 10 < values.length) ∧
      ∀ front values back, lists = front ++ values :: back → 10 < values.length → [] ∈ front := by
  obtain ⟨lists, listed, long⟩ : ∃ lists, (parcelObligation "day" "weight").domains 10 = .ok lists ∧
      ∃ values ∈ lists, 10 < values.length :=
    ⟨_, rfl, _, List.mem_cons_of_mem _ List.mem_cons_self, by decide⟩
  refine ⟨lists, listed, long, ?_⟩
  intro front values back split
  exact (domains_within_limit _ 10 lists).2 front values back listed split

/-- The limit is passed over where the empty range comes first, and noticed where it comes last. -/
theorem domains_parcel_exceed :
    parcel.obligation parcelConstraints [] = .ok (parcelObligation "day" "weight") ∧
      (∃ lists, (parcelObligation "day" "weight").domains 10 = .ok lists ∧
        ∃ values ∈ lists, ¬ values.length ≤ 10) ∧
      (parcelObligation "weight" "day").domains 10 = .error (.tooManyAssignments 10) := by
  refine ⟨rfl, ⟨_, rfl, _, List.mem_cons_of_mem _ List.mem_cons_self, ?_⟩, rfl⟩
  decide

end Obligation

end Rulebook
