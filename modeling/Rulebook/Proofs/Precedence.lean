import Rulebook.Proofs.Order

/-!
# What comes before what

The rules by which texts, values, literals and conditions are ordered. Of two kinds the one
declared first comes first; within a kind the first component that differs decides. Texts are
sequences of bytes and junctions sequences of parts, and in both a proper beginning comes first.
The comparisons find exactly what these rules say, and each of them is a linear order.
-/

namespace Rulebook

namespace Text

/-- The UTF-8 forms of the texts decide, byte by byte. -/
def Precedes (left right : String) : Prop :=
  List.Lex (· < ·) left.toUTF8.data.toList right.toUTF8.data.toList

private theorem compareBytes_eq_lt_iff (left right : List UInt8) :
    compareBytes left right = .lt ↔ List.Lex (· < ·) left right := by
  induction left generalizing right with
  | nil => cases right <;> simp [compareBytes]
  | cons byte bytes inductionHypothesis =>
      cases right with
      | nil => simp [compareBytes]
      | cons other others =>
          rw [compareBytes, Ordering.then_eq_lt, List.cons_lex_cons_iff, inductionHypothesis,
            Std.compare_eq_lt, Std.compare_eq_iff_eq]

/-- Texts are compared by their bytes. -/
theorem compareText_eq_lt_iff (left right : String) :
    compareText left right = .lt ↔ Precedes left right :=
  compareBytes_eq_lt_iff _ _

end Text

theorem compare_toNat_eq_lt_iff (left right : Bool) :
    Ord.compare left.toNat right.toNat = .lt ↔ left = false ∧ right = true := by
  cases left <;> cases right <;> decide

private theorem Comparator.ctorIdx_eq_rank (op : Comparator) : op.ctorIdx = op.rank := by
  cases op <;> rfl

private theorem Junction.compare_rank_eq_lt_iff (left right : Junction) :
    Ord.compare left.rank right.rank = .lt ↔ left = .and ∧ right = .or := by
  cases left <;> cases right <;> decide

/-- Where ranks decide between different kinds, a comparison follows a rule if it does so within
each kind. -/
theorem eq_lt_iff_of_rank
    {α : Type} {cmp : α → α → Ordering} {rank : α → Nat} {precedes : α → α → Prop} {left right : α}
    (byRank : rank left ≠ rank right → cmp left right = Ord.compare (rank left) (rank right))
    (ruleByRank : rank left ≠ rank right → (precedes left right ↔ rank left < rank right))
    (sameKind : rank left = rank right → (cmp left right = .lt ↔ precedes left right)) :
    cmp left right = .lt ↔ precedes left right := by
  by_cases same : rank left = rank right
  · exact sameKind same
  · rw [byRank same, ruleByRank same, Nat.compare_eq_lt]

namespace Value

/-- Kinds come in the order of their declaration. -/
inductive Precedes : Value → Value → Prop where
  | kind {left right : Value} (earlier : left.ctorIdx < right.ctorIdx) : Precedes left right
  | bool : Precedes (.bool false) (.bool true)
  | int {left right : Int64} (less : left < right) : Precedes (.int left) (.int right)
  | string {left right : String} (earlier : Text.Precedes left right) :
      Precedes (.string left) (.string right)

private theorem ctorIdx_eq_rank (value : Value) : value.ctorIdx = value.rank := by
  cases value <;> rfl

private theorem precedes_iff_of_rank_ne {left right : Value} (different : left.rank ≠ right.rank) :
    left.Precedes right ↔ left.rank < right.rank := by
  constructor
  · intro precedes
    cases precedes with
    | kind earlier => rwa [ctorIdx_eq_rank, ctorIdx_eq_rank] at earlier
    | _ => exact absurd rfl different
  · intro earlier
    apply Precedes.kind
    rwa [ctorIdx_eq_rank, ctorIdx_eq_rank]

private theorem not_precedes_none : ¬ none.Precedes none := by
  intro precedes
  cases precedes with
  | kind earlier => exact Nat.lt_irrefl _ earlier

@[simp]
theorem precedes_bool_iff {left right : Bool} :
    (bool left).Precedes (bool right) ↔ left = false ∧ right = true := by
  constructor
  · intro precedes
    cases precedes with
    | kind earlier => exact absurd earlier (Nat.lt_irrefl _)
    | bool => exact ⟨rfl, rfl⟩
  · rintro ⟨rfl, rfl⟩
    exact .bool

@[simp]
theorem precedes_int_iff {left right : Int64} : (int left).Precedes (int right) ↔ left < right := by
  constructor
  · intro precedes
    cases precedes with
    | kind earlier => exact absurd earlier (Nat.lt_irrefl _)
    | int less => exact less
  · exact .int

@[simp]
theorem precedes_string_iff {left right : String} :
    (string left).Precedes (string right) ↔ Text.Precedes left right := by
  constructor
  · intro precedes
    cases precedes with
    | kind earlier => exact absurd earlier (Nat.lt_irrefl _)
    | string earlier => exact earlier
  · exact .string

/-- The comparison of values follows the rules. -/
theorem compare_eq_lt_iff (left right : Value) :
    left.compare right = .lt ↔ left.Precedes right := by
  apply eq_lt_iff_of_rank (compare_of_rank_ne left right) precedes_iff_of_rank_ne
  intro same
  cases left with
  | none =>
      cases right with
      | none => exact iff_of_false (by decide) not_precedes_none
      | _ => simp [rank] at same
  | bool value =>
      cases right with
      | bool other => rw [compare, compare_toNat_eq_lt_iff, precedes_bool_iff]
      | _ => simp [rank] at same
  | int value =>
      cases right with
      | int other => rw [compare, Std.compare_eq_lt, precedes_int_iff, Int64.lt_iff_toInt_lt]
      | _ => simp [rank] at same
  | string value =>
      cases right with
      | string other => rw [compare, Text.compareText_eq_lt_iff, precedes_string_iff]
      | _ => simp [rank] at same

end Value

namespace Literal

inductive Precedes : Literal → Literal → Prop where
  | kind {left right : Literal} (earlier : left.ctorIdx < right.ctorIdx) : Precedes left right
  | value {content other : Value} (earlier : content.Precedes other) :
      Precedes (.value content) (.value other)
  | verbatim {text other : String} (earlier : Text.Precedes text other) :
      Precedes (.verbatim text) (.verbatim other)

private theorem not_precedes_value (text : String) (content : Value) :
    ¬ (verbatim text).Precedes (value content) := by
  intro precedes
  cases precedes with
  | kind earlier => exact Nat.not_lt_zero _ earlier

@[simp]
theorem precedes_value_iff {content other : Value} :
    (value content).Precedes (value other) ↔ content.Precedes other := by
  constructor
  · intro precedes
    cases precedes with
    | kind earlier => exact absurd earlier (Nat.lt_irrefl _)
    | value earlier => exact earlier
  · exact .value

@[simp]
theorem precedes_verbatim_iff {text other : String} :
    (verbatim text).Precedes (verbatim other) ↔ Text.Precedes text other := by
  constructor
  · intro precedes
    cases precedes with
    | kind earlier => exact absurd earlier (Nat.lt_irrefl _)
    | verbatim earlier => exact earlier
  · exact .verbatim

/-- The comparison of literals follows the rules. -/
private theorem compare_eq_lt_iff (left right : Literal) :
    left.compare right = .lt ↔ left.Precedes right := by
  cases left with
  | value content =>
      cases right with
      | value other => rw [compare, Value.compare_eq_lt_iff, precedes_value_iff]
      | verbatim text => exact iff_of_true rfl (.kind Nat.zero_lt_one)
  | verbatim text =>
      cases right with
      | value content =>
          exact iff_of_false (by rw [compare]; decide) (not_precedes_value text content)
      | verbatim other => rw [compare, Text.compareText_eq_lt_iff, precedes_verbatim_iff]

end Literal

namespace Condition

/-- As with values, kinds come in the order of their declaration. A comparison is read from left to
right, a junction part by part. -/
inductive Precedes : Condition → Condition → Prop where
  | kind {left right : Condition} (earlier : left.ctorIdx < right.ctorIdx) : Precedes left right
  | literal : Precedes (.literal false) (.literal true)
  | var {name other : String} (earlier : Text.Precedes name other) :
      Precedes (.var name) (.var other)
  | name {name other : String} {op otherOp : Comparator} {constant otherConstant : Value}
      (earlier : Text.Precedes name other) :
      Precedes (.comparison name op constant) (.comparison other otherOp otherConstant)
  | op {name : String} {op other : Comparator} {constant otherConstant : Value}
      (earlier : op.ctorIdx < other.ctorIdx) :
      Precedes (.comparison name op constant) (.comparison name other otherConstant)
  | constant {name : String} {op : Comparator} {constant other : Value}
      (earlier : constant.Precedes other) :
      Precedes (.comparison name op constant) (.comparison name op other)
  /-- Conjunctions and disjunctions are kinds of their own. -/
  | junction {parts others : List Condition} :
      Precedes (.junction .and parts) (.junction .or others)
  | parts {kind : Junction} {parts others : List Condition}
      (earlier : List.Lex Precedes parts others) :
      Precedes (.junction kind parts) (.junction kind others)
  | not {operand other : Condition} (earlier : Precedes operand other) :
      Precedes (.not operand) (.not other)
  | verbatim {text other : String} (earlier : Text.Precedes text other) :
      Precedes (.verbatim text) (.verbatim other)

private theorem ctorIdx_eq_rank (condition : Condition) : condition.ctorIdx = condition.rank := by
  cases condition <;> rfl

private theorem precedes_iff_of_rank_ne
    {left right : Condition} (different : left.rank ≠ right.rank) :
    left.Precedes right ↔ left.rank < right.rank := by
  constructor
  · intro precedes
    cases precedes with
    | kind earlier => rwa [ctorIdx_eq_rank, ctorIdx_eq_rank] at earlier
    | _ => exact absurd rfl different
  · intro earlier
    apply Precedes.kind
    rwa [ctorIdx_eq_rank, ctorIdx_eq_rank]

@[simp]
theorem precedes_literal_iff {left right : Bool} :
    (literal left).Precedes (literal right) ↔ left = false ∧ right = true := by
  constructor
  · intro precedes
    cases precedes with
    | kind earlier => exact absurd earlier (Nat.lt_irrefl _)
    | literal => exact ⟨rfl, rfl⟩
  · rintro ⟨rfl, rfl⟩
    exact .literal

@[simp]
theorem precedes_var_iff {name other : String} :
    (var name).Precedes (var other) ↔ Text.Precedes name other := by
  constructor
  · intro precedes
    cases precedes with
    | kind earlier => exact absurd earlier (Nat.lt_irrefl _)
    | var earlier => exact earlier
  · exact .var

private theorem precedes_comparison_iff
    {name other : String} {op otherOp : Comparator} {constant otherConstant : Value} :
    (comparison name op constant).Precedes (comparison other otherOp otherConstant) ↔
      Text.Precedes name other ∨
        name = other ∧
          (op.ctorIdx < otherOp.ctorIdx ∨ op = otherOp ∧ constant.Precedes otherConstant) := by
  constructor
  · intro precedes
    cases precedes with
    | kind earlier => exact absurd earlier (Nat.lt_irrefl _)
    | name earlier => exact .inl earlier
    | op earlier => exact .inr ⟨rfl, .inl earlier⟩
    | constant earlier => exact .inr ⟨rfl, .inr ⟨rfl, earlier⟩⟩
  · rintro (earlier | ⟨rfl, earlier | ⟨rfl, earlier⟩⟩)
    · exact .name earlier
    · exact .op earlier
    · exact .constant earlier

private theorem precedes_junction_iff {kind otherKind : Junction} {parts others : List Condition} :
    (junction kind parts).Precedes (junction otherKind others) ↔
      kind = .and ∧ otherKind = .or ∨ kind = otherKind ∧ List.Lex Precedes parts others := by
  constructor
  · intro precedes
    cases precedes with
    | kind earlier => exact absurd earlier (Nat.lt_irrefl _)
    | junction => exact .inl ⟨rfl, rfl⟩
    | parts earlier => exact .inr ⟨rfl, earlier⟩
  · rintro (⟨rfl, rfl⟩ | ⟨rfl, earlier⟩)
    · exact .junction
    · exact .parts earlier

@[simp]
theorem precedes_not_iff {operand other : Condition} :
    (not operand).Precedes (not other) ↔ operand.Precedes other := by
  constructor
  · intro precedes
    cases precedes with
    | kind earlier => exact absurd earlier (Nat.lt_irrefl _)
    | not earlier => exact earlier
  · exact .not

@[simp]
theorem precedes_verbatim_iff {text other : String} :
    (verbatim text).Precedes (verbatim other) ↔ Text.Precedes text other := by
  constructor
  · intro precedes
    cases precedes with
    | kind earlier => exact absurd earlier (Nat.lt_irrefl _)
    | verbatim earlier => exact earlier
  · exact .verbatim

mutual

/-- The comparison of conditions follows the rules, through all their parts. -/
theorem compare_eq_lt_iff (left right : Condition) :
    left.compare right = .lt ↔ left.Precedes right := by
  apply eq_lt_iff_of_rank (compare_of_rank_ne left right) precedes_iff_of_rank_ne
  intro same
  cases left with
  | literal value =>
      cases right with
      | literal other => rw [compare, compare_toNat_eq_lt_iff, precedes_literal_iff]
      | _ => simp [rank] at same
  | var name =>
      cases right with
      | var other => rw [compare, Text.compareText_eq_lt_iff, precedes_var_iff]
      | _ => simp [rank] at same
  | comparison name op constant =>
      cases right with
      | comparison other otherOp otherConstant =>
          rw [compare, precedes_comparison_iff, Ordering.then_eq_lt, Ordering.then_eq_lt,
            Text.compareText_eq_lt_iff, Text.compareText_eq_iff, Nat.compare_eq_lt,
            Nat.compare_eq_eq, Comparator.rank_inj, Value.compare_eq_lt_iff,
            op.ctorIdx_eq_rank, otherOp.ctorIdx_eq_rank]
      | _ => simp [rank] at same
  | junction kind parts =>
      cases right with
      | junction otherKind others =>
          rw [compare, precedes_junction_iff, Ordering.then_eq_lt,
            Junction.compare_rank_eq_lt_iff, Nat.compare_eq_eq, Junction.rank_inj,
            compareParts_eq_lt_iff parts others]
      | _ => simp [rank] at same
  | not operand =>
      cases right with
      | not other => rw [compare, compare_eq_lt_iff operand other, precedes_not_iff]
      | _ => simp [rank] at same
  | verbatim text =>
      cases right with
      | verbatim other => rw [compare, Text.compareText_eq_lt_iff, precedes_verbatim_iff]
      | _ => simp [rank] at same

theorem compareParts_eq_lt_iff (parts others : List Condition) :
    compareParts parts others = .lt ↔ List.Lex Precedes parts others := by
  cases parts with
  | nil =>
      cases others with
      | nil => exact iff_of_false (by rw [compareParts]; decide) List.not_lex_nil
      | cons other others => exact iff_of_true rfl .nil
  | cons part rest =>
      cases others with
      | nil => exact iff_of_false (by rw [compareParts]; decide) List.not_lex_nil
      | cons other others =>
          rw [compareParts, Ordering.then_eq_lt, List.cons_lex_cons_iff, compare_eq_iff,
            compare_eq_lt_iff part other, compareParts_eq_lt_iff rest others]

end

instance (left right : Condition) : Decidable (left.Precedes right) :=
  decidable_of_iff (left.compare right = .lt) (compare_eq_lt_iff left right)

/-- Bytes decide: in units of UTF-16 the second name would come first. -/
example : (junction .and [var "\uffff", literal true]).Precedes (junction .and [var "😀"]) := by
  decide

example : (junction .and [var "a"]).Precedes (junction .and [var "a", literal false]) := by
  decide

end Condition

/-- The orders of values, literals and conditions are linear, and the rules say which of two
different things comes first. -/
theorem orders_linear :
    (LinearComparison Value.compare ∧
      ∀ left right : Value, left.compare right = .lt ↔ left.Precedes right) ∧
    (LinearComparison Literal.compare ∧
      ∀ left right : Literal, left.compare right = .lt ↔ left.Precedes right) ∧
    (LinearComparison Condition.compare ∧
      ∀ left right : Condition, left.compare right = .lt ↔ left.Precedes right) :=
  ⟨⟨Value.compare_linear, Value.compare_eq_lt_iff⟩,
    ⟨Literal.compare_linear, Literal.compare_eq_lt_iff⟩,
    ⟨Condition.compare_linear, Condition.compare_eq_lt_iff⟩⟩

end Rulebook
