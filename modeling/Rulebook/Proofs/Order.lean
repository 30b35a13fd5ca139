import Rulebook.Condition.Order

/-!
# Laws of the order of conditions

Comparing the other way round gives the reverse, and what comes before something else comes before
all that follows it, so that texts, values, literals and conditions are each in a linear order.
Things of different kinds are ordered by the rank of their kinds; of two things of one kind, the
first component that differs decides.
-/

namespace Rulebook

/-- A comparison that puts the things of a type in one line. -/
structure LinearComparison {α : Type} (cmp : α → α → Ordering) : Prop where
  eq_iff : ∀ left right, cmp left right = .eq ↔ left = right
  swap : ∀ left right, cmp right left = (cmp left right).swap
  isLE_trans : ∀ {first second third},
    (cmp first second).isLE → (cmp second third).isLE → (cmp first third).isLE

namespace LinearComparison

variable {α : Type} {cmp : α → α → Ordering}

/-- Only the strict part has to be transitive where nothing but the same compares as equal. -/
theorem of_strict
    (lawful : ∀ left right, cmp left right = .eq ↔ left = right)
    (swap : ∀ left right, cmp left right = (cmp right left).swap)
    (trans : ∀ {first second third}, cmp first second = .lt → cmp second third = .lt →
      cmp first third = .lt) :
    LinearComparison cmp where
  eq_iff := lawful
  swap left right := swap right left
  isLE_trans {first second third} upToSecond upToThird := by
    rcases Ordering.isLE_iff_eq_lt_or_eq_eq.mp upToSecond with before | same
    · rcases Ordering.isLE_iff_eq_lt_or_eq_eq.mp upToThird with after | same
      · exact Ordering.isLE_of_eq_lt (trans before after)
      · rwa [← (lawful second third).mp same]
    · rwa [(lawful first second).mp same]

theorem lt_trans
    (linear : LinearComparison cmp) {first second third : α}
    (before : cmp first second = .lt) (after : cmp second third = .lt) :
    cmp first third = .lt := by
  have upToThird : (cmp first third).isLE :=
    linear.isLE_trans (Ordering.isLE_of_eq_lt before) (Ordering.isLE_of_eq_lt after)
  rcases Ordering.isLE_iff_eq_lt_or_eq_eq.mp upToThird with strictly | same
  · exact strictly
  · rw [← (linear.eq_iff first third).mp same, linear.swap, before] at after
    cases after

end LinearComparison

/-- The order of texts is linear. -/
theorem Text.compareText_linear : LinearComparison Text.compareText :=
  .of_strict compareText_eq_iff compareText_swap compareText_lt_trans

/-- The results of comparing a first thing with a second, the second with a third and the first
with the third, as far as an order relates them. -/
structure Chained (early late whole : Ordering) : Prop where
  trans : early = .lt → late = .lt → whole = .lt
  sameEarly : early = .eq → whole = late
  sameLate : late = .eq → whole = early

namespace Chained

/-- Three things in the order of a lawful comparison. -/
theorem of_lawful
    {α : Type} {cmp : α → α → Ordering} {first second third : α}
    (lawful : ∀ left right, cmp left right = .eq ↔ left = right)
    (trans : cmp first second = .lt → cmp second third = .lt → cmp first third = .lt) :
    Chained (cmp first second) (cmp second third) (cmp first third) where
  trans := trans
  sameEarly same := by rw [(lawful first second).mp same]
  sameLate same := by rw [(lawful second third).mp same]

/-- Of two components, the second counts where the first ones agree. -/
theorem andThen
    {early late whole earlyTie lateTie wholeTie : Ordering}
    (chained : Chained early late whole) (tie : Chained earlyTie lateTie wholeTie) :
    Chained (early.then earlyTie) (late.then lateTie) (whole.then wholeTie) where
  trans before after := by
    rw [Ordering.then_eq_lt] at before after ⊢
    rcases before with before | ⟨same, before⟩
    · rcases after with after | ⟨same, _⟩
      · exact .inl (chained.trans before after)
      · rw [chained.sameLate same]
        exact .inl before
    · rw [chained.sameEarly same]
      rcases after with after | ⟨sameLate, after⟩
      · exact .inl after
      · exact .inr ⟨sameLate, tie.trans before after⟩
  sameEarly same := by
    rw [Ordering.then_eq_eq] at same
    rw [chained.sameEarly same.1, tie.sameEarly same.2]
  sameLate same := by
    rw [Ordering.then_eq_eq] at same
    rw [chained.sameLate same.1, tie.sameLate same.2]

private theorem nat (first second third : Nat) :
    Chained (Ord.compare first second) (Ord.compare second third) (Ord.compare first third) :=
  of_lawful (fun _ _ => Std.compare_eq_iff_eq) Std.TransCmp.lt_trans

end Chained

section Ranked

variable {α : Type} {cmp : α → α → Ordering} {rank : α → Nat}

/-- Where the rank decides between different kinds, only things of one kind are left to look
at. -/
theorem swap_of_rank
    (byRank : ∀ left right, rank left ≠ rank right →
      cmp left right = Ord.compare (rank left) (rank right))
    {left right : α}
    (sameKind : rank left = rank right → cmp left right = (cmp right left).swap) :
    cmp left right = (cmp right left).swap := by
  by_cases same : rank left = rank right
  · exact sameKind same
  · rw [byRank left right same, byRank right left (Ne.symm same)]
    exact Std.OrientedCmp.eq_swap

private theorem rank_le_of_lt
    (byRank : ∀ left right, rank left ≠ rank right →
      cmp left right = Ord.compare (rank left) (rank right))
    {left right : α} (before : cmp left right = .lt) : rank left ≤ rank right := by
  by_cases same : rank left = rank right
  · exact Nat.le_of_eq same
  · rw [byRank left right same] at before
    exact Nat.le_of_lt (Nat.compare_eq_lt.mp before)

/-- Transitivity, too, has to be looked at within one kind only. -/
theorem lt_trans_of_rank
    (byRank : ∀ left right, rank left ≠ rank right →
      cmp left right = Ord.compare (rank left) (rank right))
    {first second third : α}
    (sameKind : rank first = rank second → rank second = rank third →
      cmp first second = .lt → cmp second third = .lt → cmp first third = .lt)
    (before : cmp first second = .lt) (after : cmp second third = .lt) :
    cmp first third = .lt := by
  have upToSecond : rank first ≤ rank second := rank_le_of_lt byRank before
  have upToThird : rank second ≤ rank third := rank_le_of_lt byRank after
  by_cases same : rank first = rank third
  · have sameFirst : rank first = rank second := by omega
    have sameSecond : rank second = rank third := by omega
    exact sameKind sameFirst sameSecond before after
  · rw [byRank first third same]
    exact Nat.compare_eq_lt.mpr (by omega)

end Ranked

namespace Value

theorem compare_of_rank_ne (left right : Value) (different : left.rank ≠ right.rank) :
    left.compare right = Ord.compare left.rank right.rank := by
  cases left <;> cases right <;> simp [compare, rank] at different ⊢

theorem compare_swap (left right : Value) : left.compare right = (right.compare left).swap := by
  apply swap_of_rank compare_of_rank_ne
  intro same
  cases left with
  | none =>
      cases right with
      | none => rfl
      | _ => simp [rank] at same
  | bool value =>
      cases right with
      | bool other => rw [compare, compare, ← Std.OrientedCmp.eq_swap]
      | _ => simp [rank] at same
  | int value =>
      cases right with
      | int other => rw [compare, compare, ← Std.OrientedCmp.eq_swap]
      | _ => simp [rank] at same
  | string value =>
      cases right with
      | string other => exact Text.compareText_swap value other
      | _ => simp [rank] at same

/-- Values are compared with others of their kind, and kinds are ranked. -/
theorem compare_lt_trans {first second third : Value}
    (before : first.compare second = .lt) (after : second.compare third = .lt) :
    first.compare third = .lt := by
  refine lt_trans_of_rank compare_of_rank_ne ?_ before after
  intro sameFirst sameSecond before after
  cases second with
  | none =>
      cases first with
      | none => exact after
      | _ => simp [rank] at sameFirst
  | bool middle =>
      cases first with
      | bool value =>
          cases third with
          | bool other =>
              rw [compare] at before after ⊢
              exact Std.TransCmp.lt_trans before after
          | _ => simp [rank] at sameSecond
      | _ => simp [rank] at sameFirst
  | int middle =>
      cases first with
      | int value =>
          cases third with
          | int other =>
              rw [compare] at before after ⊢
              exact Std.TransCmp.lt_trans before after
          | _ => simp [rank] at sameSecond
      | _ => simp [rank] at sameFirst
  | string middle =>
      cases first with
      | string value =>
          cases third with
          | string other => exact Text.compareText_lt_trans before after
          | _ => simp [rank] at sameSecond
      | _ => simp [rank] at sameFirst

theorem compare_linear : LinearComparison compare :=
  .of_strict compare_eq_iff compare_swap compare_lt_trans

end Value

namespace Literal

theorem compare_swap (left right : Literal) :
    left.compare right = (right.compare left).swap := by
  cases left with
  | value content =>
      cases right with
      | value other => exact Value.compare_swap content other
      | verbatim text => rfl
  | verbatim text =>
      cases right with
      | value content => rfl
      | verbatim other => exact Text.compareText_swap text other

theorem compare_lt_trans {first second third : Literal}
    (before : first.compare second = .lt) (after : second.compare third = .lt) :
    first.compare third = .lt := by
  cases second with
  | value middle =>
      cases first with
      | value content =>
          cases third with
          | value other => exact Value.compare_lt_trans before after
          | verbatim text => rfl
      | verbatim text => cases before
  | verbatim middle =>
      cases third with
      | value content => cases after
      | verbatim other =>
          cases first with
          | value content => rfl
          | verbatim text => exact Text.compareText_lt_trans before after

theorem compare_linear : LinearComparison compare :=
  .of_strict compare_eq_iff compare_swap compare_lt_trans

end Literal

namespace Condition

theorem compare_of_rank_ne (left right : Condition) (different : left.rank ≠ right.rank) :
    left.compare right = Ord.compare left.rank right.rank := by
  cases left <;> cases right <;> simp [compare, rank] at different ⊢

mutual

theorem compare_swap (left right : Condition) :
    left.compare right = (right.compare left).swap := by
  apply swap_of_rank compare_of_rank_ne
  intro same
  cases left with
  | literal value =>
      cases right with
      | literal other => rw [compare, compare, ← Std.OrientedCmp.eq_swap]
      | _ => simp [rank] at same
  | var name =>
      cases right with
      | var other => rw [compare, compare, ← Text.compareText_swap]
      | _ => simp [rank] at same
  | comparison name op constant =>
      cases right with
      | comparison otherName otherOp otherConstant =>
          rw [compare, compare, Ordering.swap_then, Ordering.swap_then, ← Text.compareText_swap,
            ← Std.OrientedCmp.eq_swap, ← Value.compare_swap]
      | _ => simp [rank] at same
  | junction kind parts =>
      cases right with
      | junction otherKind others =>
          rw [compare, compare, Ordering.swap_then, ← Std.OrientedCmp.eq_swap,
            ← compareParts_swap parts others]
      | _ => simp [rank] at same
  | not operand =>
      cases right with
      | not other => rw [compare, compare, ← compare_swap operand other]
      | _ => simp [rank] at same
  | verbatim text =>
      cases right with
      | verbatim other => rw [compare, compare, ← Text.compareText_swap]
      | _ => simp [rank] at same

theorem compareParts_swap (lefts rights : List Condition) :
    compareParts lefts rights = (compareParts rights lefts).swap := by
  cases lefts with
  | nil => cases rights <;> rfl
  | cons left lefts =>
      cases rights with
      | nil => rfl
      | cons right rights =>
          rw [compareParts, compareParts, Ordering.swap_then, ← compare_swap left right,
            ← compareParts_swap lefts rights]

end

mutual

/-- The ranks leave for the first and the third condition only the kind of the one between them. -/
theorem compare_lt_trans {first second third : Condition}
    (before : first.compare second = .lt) (after : second.compare third = .lt) :
    first.compare third = .lt := by
  refine lt_trans_of_rank compare_of_rank_ne ?_ before after
  intro sameFirst sameSecond before after
  cases second with
  | literal middle =>
      cases first with
      | literal value =>
          cases third with
          | literal other =>
              rw [compare] at before after ⊢
              exact Std.TransCmp.lt_trans before after
          | _ => simp [rank] at sameSecond
      | _ => simp [rank] at sameFirst
  | var middle =>
      cases first with
      | var name =>
          cases third with
          | var other =>
              rw [compare] at before after ⊢
              exact Text.compareText_lt_trans before after
          | _ => simp [rank] at sameSecond
      | _ => simp [rank] at sameFirst
  | comparison middleName middleOp middleConstant =>
      cases first with
      | comparison name op constant =>
          cases third with
          | comparison otherName otherOp otherConstant =>
              rw [compare] at before after ⊢
              have names : Chained (Text.compareText name middleName)
                  (Text.compareText middleName otherName) (Text.compareText name otherName) :=
                .of_lawful Text.compareText_eq_iff Text.compareText_lt_trans
              have constants : Chained (constant.compare middleConstant)
                  (middleConstant.compare otherConstant) (constant.compare otherConstant) :=
                .of_lawful Value.compare_eq_iff Value.compare_lt_trans
              exact (names.andThen ((Chained.nat op.rank middleOp.rank otherOp.rank).andThen
                constants)).trans before after
          | _ => simp [rank] at sameSecond
      | _ => simp [rank] at sameFirst
  | junction middleKind middleParts =>
      cases first with
      | junction kind parts =>
          cases third with
          | junction otherKind others =>
              rw [compare] at before after ⊢
              have inside : Chained (compareParts parts middleParts)
                  (compareParts middleParts others) (compareParts parts others) :=
                .of_lawful compareParts_eq_iff compareParts_lt_trans
              exact ((Chained.nat kind.rank middleKind.rank otherKind.rank).andThen inside).trans
                before after
          | _ => simp [rank] at sameSecond
      | _ => simp [rank] at sameFirst
  | not middle =>
      cases first with
      | not operand =>
          cases third with
          | not other =>
              rw [compare] at before after ⊢
              exact compare_lt_trans before after
          | _ => simp [rank] at sameSecond
      | _ => simp [rank] at sameFirst
  | verbatim middle =>
      cases first with
      | verbatim text =>
          cases third with
          | verbatim other =>
              rw [compare] at before after ⊢
              exact Text.compareText_lt_trans before after
          | _ => simp [rank] at sameSecond
      | _ => simp [rank] at sameFirst

theorem compareParts_lt_trans {firsts seconds thirds : List Condition}
    (before : compareParts firsts seconds = .lt) (after : compareParts seconds thirds = .lt) :
    compareParts firsts thirds = .lt := by
  cases seconds with
  | nil => cases firsts <;> simp [compareParts] at before
  | cons second seconds =>
      cases thirds with
      | nil => simp [compareParts] at after
      | cons third thirds =>
          cases firsts with
          | nil => rfl
          | cons first firsts =>
              rw [compareParts] at before after ⊢
              have heads : Chained (first.compare second) (second.compare third)
                  (first.compare third) :=
                .of_lawful compare_eq_iff compare_lt_trans
              have tails : Chained (compareParts firsts seconds) (compareParts seconds thirds)
                  (compareParts firsts thirds) :=
                .of_lawful compareParts_eq_iff compareParts_lt_trans
              exact (heads.andThen tails).trans before after

end

/-- The order of conditions is linear. -/
theorem compare_linear : LinearComparison compare :=
  .of_strict compare_eq_iff compare_swap compare_lt_trans

end Condition

end Rulebook
