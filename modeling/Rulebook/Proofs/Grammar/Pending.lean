import Rulebook.Proofs.Grammar.CompoundRun

/-!
# What pending operators stand for

An operator that waits for its right operand stands for the tokens of its left operand and its own.
Where operators wait one after the other, each may start the right operand of the one before it.
Given a right operand they can therefore be applied from the innermost outwards, and what they
yield is an expression of the grammar over all these tokens.
-/

namespace Rulebook

open Grammar

namespace Grammar

/-- Higher numbers bind more tightly, in agreement with the strength of operators. -/
def Level.rank : Level → Nat
  | .test => 1
  | .orTest => 2
  | .andTest => 3
  | .notTest => 4
  | .comparison => 5
  | .arith => 6
  | .term => 7
  | .factor => 8
  | .power => 9
  | .primary => 10
  | .atom => 11

/-- An expression of a tight kind is one of every looser kind. -/
theorem Derives.loosen {loose tight : Level} {tokens : Tokens} {expr : Expr}
    (derivation : Derives (.expression tight) tokens expr) (looser : loose.rank ≤ tight.rank) :
    Derives (.expression loose) tokens expr := by
  by_cases same : loose = tight
  · rw [same]
    exact derivation
  · have closer : loose.tighter.rank ≤ tight.rank ∧
        tight.rank - loose.tighter.rank < tight.rank - loose.rank := by
      revert looser same
      cases loose <;> cases tight <;> decide
    have tighter : Derives (.expression loose.tighter) tokens expr := derivation.loosen closer.1
    exact .tighter tighter
termination_by tight.rank - loose.rank
decreasing_by exact closer.2

theorem Derives.expression_ne_nil {level : Level} {tokens : Tokens} {expr : Expr}
    (derivation : Derives (.expression level) tokens expr) : tokens ≠ [] := by
  have reads : ReadsExpr level tokens expr := follows_of_derives derivation
  exact reads.ne_nil

end Grammar

/-- The operand is an expression over the tokens that binds at least as tightly as `strength`. -/
def Operand.Means (strength : Nat) (operand : Operand) (tokens : Tokens) : Prop :=
  (∃ level : Level, strength ≤ level.rank ∧ Derives (.expression level) tokens operand.expr) ∧
    operand.extent = Grammar.extent tokens

namespace Operand.Means

variable {strength : Nat} {operand : Operand} {tokens : Tokens}

private theorem of_derives {level : Level} {expr : Expr}
    (derivation : Derives (.expression level) tokens expr) :
    Means level.rank ⟨Grammar.extent tokens, expr⟩ tokens :=
  ⟨⟨level, Nat.le_refl _, derivation⟩, rfl⟩

theorem of_form {level : Level} {node : Span → Expr} {span : Span}
    (derivation : Derives (.form level) tokens node) (isExtent : span = Grammar.extent tokens) :
    Means level.rank ⟨span, node span⟩ tokens := by
  rw [isExtent]
  exact of_derives (.formed derivation)

theorem mono {looser : Nat} (means : Means strength operand tokens) (bound : looser ≤ strength) :
    Means looser operand tokens := by
  obtain ⟨⟨level, tight, derivation⟩, isExtent⟩ := means
  exact ⟨⟨level, Nat.le_trans bound tight, derivation⟩, isExtent⟩

theorem of_atom {node : Span → Expr} {span : Span} (derivation : Derives (.form .atom) tokens node)
    (isExtent : span = Grammar.extent tokens) : Means 10 ⟨span, node span⟩ tokens :=
  mono (of_form derivation isExtent) (by decide)

/-- An operand is an expression of every kind that it binds tightly enough for. -/
theorem derives (means : Means strength operand tokens) (level : Level)
    (bound : level.rank ≤ strength) : Derives (.expression level) tokens operand.expr := by
  obtain ⟨⟨tight, above, derivation⟩, -⟩ := means
  exact derivation.loosen (Nat.le_trans bound above)

theorem ne_nil (means : Means strength operand tokens) : tokens ≠ [] := by
  obtain ⟨⟨_, -, derivation⟩, -⟩ := means
  exact derivation.expression_ne_nil

theorem between {leftStrength : Nat} {left : Operand} {front back : Tokens} (middle : Tokens)
    (leftMeans : Means leftStrength left front) (means : Means strength operand back) :
    left.extent.through operand.extent = Grammar.extent (front ++ middle ++ back) := by
  rw [extent_between leftMeans.ne_nil middle means.ne_nil, leftMeans.2, means.2]

end Operand.Means

/-- The operator stands for the tokens of its left operand and its own. -/
inductive Operator.Stands : Operator → Tokens → Prop
  | otherwise {body : Operand} {test : Expr} {front middle : Tokens} {ifSpan elseSpan : Span} :
      body.Means 2 front →
      Derives (.expression .orTest) middle test →
      Stands (.otherwise body test)
        (front ++ ⟨.keyword .ifKw, ifSpan⟩ :: middle ++ [⟨.keyword .elseKw, elseSpan⟩])
  | or {left : Operand} {front : Tokens} {span : Span} :
      left.Means 2 front →
      Stands (.connective .or left) (front ++ [⟨.keyword .orKw, span⟩])
  | and {left : Operand} {front : Tokens} {span : Span} :
      left.Means 3 front →
      Stands (.connective .and left) (front ++ [⟨.keyword .andKw, span⟩])
  | not {span : Span} : Stands (.not span) [⟨.keyword .notKw, span⟩]
  | compare {left : Operand} {links : List (Relation × Expr)} {relation : Relation}
      {front middle back : Tokens} :
      left.Means 6 front →
      Derives (.many .link) middle links →
      Derives .relation back relation →
      Stands (.compare left links relation) (front ++ middle ++ back)
  | additive {left : Operand} {op : Arithmetic} {front back : Tokens} :
      left.Means 6 front →
      Derives .additive back op →
      Stands (.arithmetic op left) (front ++ back)
  | multiplicative {left : Operand} {op : Arithmetic} {front back : Tokens} :
      left.Means 7 front →
      Derives .multiplicative back op →
      Stands (.arithmetic op left) (front ++ back)
  | power {left : Operand} {front : Tokens} {span : Span} :
      left.Means 10 front →
      Stands (.arithmetic .pow left) (front ++ [⟨.symbol .starStar, span⟩])
  | negative {span : Span} : Stands (.signed span .negative) [⟨.symbol .minus, span⟩]
  | positive {span : Span} : Stands (.signed span .positive) [⟨.symbol .plus, span⟩]

/-- How tightly the right operand must bind. -/
def Operator.demand : Operator → Nat
  | .otherwise _ _ => 1
  | .connective .or _ => 3
  | .connective .and _ => 4
  | .not _ => 4
  | .compare _ _ _ => 6
  | .arithmetic .add _ | .arithmetic .sub _ => 7
  | .arithmetic _ _ | .signed _ _ => 8

private theorem Operator.demand_le (operator : Operator) :
    operator.demand ≤ 8 ∧ operator.demand ≤ operator.strength + 1 := by
  cases operator with
  | connective op left => cases op <;> simp [demand, strength, Connective.strength]
  | arithmetic op left => cases op <;> simp [demand, strength, Arithmetic.strength]
  | otherwise | not | compare | signed => simp [demand, strength]

theorem Operator.demand_le_of_strength_le (operator : Operator) :
    (operator.strength ≤ 1 → operator.demand ≤ 1) ∧
      (operator.strength ≤ 4 → operator.demand ≤ 4) := by
  cases operator with
  | connective op left => cases op <;> simp [demand, strength, Connective.strength]
  | arithmetic op left => cases op <;> simp [demand, strength, Arithmetic.strength]
  | otherwise | not | compare | signed => simp [demand, strength]

private theorem Operator.eq_compare_of_strength (operator : Operator)
    (isFive : operator.strength = 5) :
    ∃ left links relation, operator = .compare left links relation := by
  cases operator with
  | compare left links relation => exact ⟨left, links, relation, rfl⟩
  | connective op left => cases op <;> cases isFive
  | arithmetic op left => cases op <;> cases isFive
  | otherwise | not | signed => cases isFive

/-- An operator with a right operand of the strength it demands is an expression. -/
theorem Operator.Stands.apply {operator : Operator} {front back : Tokens} {right : Operand}
    (stands : operator.Stands front) (means : right.Means operator.demand back) :
    (operator.apply right).Means operator.strength (front ++ back) := by
  cases stands with
  | @otherwise body test before middle ifSpan elseSpan bodyMeans testDerives =>
      have derivation : Derives (.form .test)
          (before ++ (⟨.keyword .ifKw, ifSpan⟩ :: middle ++ [⟨.keyword .elseKw, elseSpan⟩]) ++ back)
          (.conditional · body.expr test right.expr) := by
        rw [← List.append_assoc before, List.append_assoc _ _ back]
        exact .conditional (bodyMeans.derives .orTest (Nat.le_refl 2)) testDerives
          (means.derives .test (Nat.le_refl 1))
      rw [List.append_assoc before]
      exact .of_form derivation (bodyMeans.between _ means)
  | @or left before span leftMeans =>
      have derivation : Derives (.form .orTest) (before ++ [⟨.keyword .orKw, span⟩] ++ back)
          (.connective · .or left.expr right.expr) := by
        rw [List.append_assoc]
        exact .or (leftMeans.derives .orTest (Nat.le_refl 2))
          (means.derives .andTest (Nat.le_refl 3))
      exact .of_form derivation (leftMeans.between _ means)
  | @and left before span leftMeans =>
      have derivation : Derives (.form .andTest) (before ++ [⟨.keyword .andKw, span⟩] ++ back)
          (.connective · .and left.expr right.expr) := by
        rw [List.append_assoc]
        exact .and (leftMeans.derives .andTest (Nat.le_refl 3))
          (means.derives .notTest (Nat.le_refl 4))
      exact .of_form derivation (leftMeans.between _ means)
  | @not span =>
      refine .of_form (.not (means.derives .notTest (Nat.le_refl 4))) ?_
      rw [extent_cons means.ne_nil, ← means.2]
  | @compare left links relation before middle mark leftMeans linksDerive markDerives =>
      have link : Derives .link (mark ++ back) (relation, right.expr) :=
        .link markDerives (means.derives .arith (Nat.le_refl 6))
      have derivation : Derives (.form .comparison) (before ++ (middle ++ mark) ++ back)
          (.compare · left.expr (links ++ [(relation, right.expr)])) := by
        rw [List.append_assoc, List.append_assoc]
        exact .comparison (leftMeans.derives .arith (Nat.le_refl 6)) (.several linksDerive link)
      rw [List.append_assoc before]
      exact .of_form derivation (leftMeans.between _ means)
  | @additive left op before mark leftMeans markDerives =>
      have demanded : Operator.demand (.arithmetic op left) = 7 ∧
          Operator.strength (.arithmetic op left) = 6 := by
        cases markDerives <;> exact ⟨rfl, rfl⟩
      rw [demanded.1] at means
      rw [demanded.2]
      have derivation := Derives.sum (leftMeans.derives .arith (Nat.le_refl 6)) markDerives
        (means.derives .term (Nat.le_refl 7))
      exact .of_form derivation (leftMeans.between _ means)
  | @multiplicative left op before mark leftMeans markDerives =>
      have demanded : Operator.demand (.arithmetic op left) = 8 ∧
          Operator.strength (.arithmetic op left) = 7 := by
        cases markDerives <;> exact ⟨rfl, rfl⟩
      rw [demanded.1] at means
      rw [demanded.2]
      have derivation := Derives.product (leftMeans.derives .term (Nat.le_refl 7)) markDerives
        (means.derives .factor (Nat.le_refl 8))
      exact .of_form derivation (leftMeans.between _ means)
  | @power left before span leftMeans =>
      have derivation : Derives (.form .power) (before ++ [⟨.symbol .starStar, span⟩] ++ back)
          (.arithmetic · .pow left.expr right.expr) := by
        rw [List.append_assoc]
        exact .power (leftMeans.derives .primary (Nat.le_refl 10))
          (means.derives .factor (Nat.le_refl 8))
      exact .of_form derivation (leftMeans.between _ means)
  | @negative span =>
      refine .of_form (.negative (means.derives .factor (Nat.le_refl 8))) ?_
      rw [extent_cons means.ne_nil, ← means.2]
  | @positive span =>
      refine .of_form (.positive (means.derives .factor (Nat.le_refl 8))) ?_
      rw [extent_cons means.ne_nil, ← means.2]

/-! ## Stacks of operators -/

/-- How tightly the next operand must bind, where `floor` is asked for if no operator waits. -/
def demanded (floor : Nat) (operators : List Operator) : Nat :=
  (operators.head?.map Operator.demand).getD floor

/-- The waiting operators, latest first, stand for the tokens. -/
inductive Pending (floor : Nat) : List Operator → Tokens → Prop
  | nil : Pending floor [] []
  | cons {operator : Operator} {rest : List Operator} {front back : Tokens} :
      Pending floor rest front →
      operator.Stands back →
      demanded floor rest ≤ operator.strength →
      Pending floor (operator :: rest) (front ++ back)

/-- Behind looser operators, an operand of the given strength is enough. -/
theorem demanded_le_of_looser {floor strength : Nat} {operators : List Operator}
    (low : floor ≤ strength) (loose : ∀ operator ∈ operators.head?, operator.strength < strength) :
    demanded floor operators ≤ strength := by
  cases operators with
  | nil => exact low
  | cons operator rest =>
      have looser : operator.strength < strength := loose operator rfl
      have demand : operator.demand ≤ operator.strength + 1 := operator.demand_le.2
      exact Nat.le_trans demand looser

theorem demanded_le {floor : Nat} (low : floor ≤ 8) (operators : List Operator) :
    demanded floor operators ≤ 8 := by
  cases operators with
  | nil => exact low
  | cons operator rest => exact operator.demand_le.1

namespace Pending

variable {floor strength : Nat} {operators : List Operator} {front back : Tokens} {value : Operand}

/-- Applying all operators gives an operand of the strength asked for in the beginning. -/
theorem settle (pending : Pending floor operators front)
    (means : value.Means (demanded floor operators) back) :
    (Rulebook.settle operators value).Means floor (front ++ back) := by
  induction pending generalizing value back with
  | nil => exact means
  | @cons operator rest before middle _ stands fits inductionHypothesis =>
      have applied : (operator.apply value).Means operator.strength (middle ++ back) :=
        stands.apply means
      rw [List.append_assoc]
      exact inductionHypothesis (applied.mono fits)

/-- Applying the operators down to a strength leaves looser ones and an operand of that
strength. -/
theorem collapse {bound : Nat} (pending : Pending floor operators front)
    (means : value.Means strength back) (demand : demanded floor operators ≤ strength)
    (low : bound ≤ strength) :
    ∃ before after, front ++ back = before ++ after ∧
      Pending floor (Rulebook.collapse bound operators value).1 before ∧
      (Rulebook.collapse bound operators value).2.Means bound after ∧
      ∀ operator ∈ (Rulebook.collapse bound operators value).1.head?,
        operator.strength < bound := by
  induction pending generalizing value strength back with
  | nil => exact ⟨[], back, rfl, .nil, means.mono low, by simp [Rulebook.collapse]⟩
  | @cons operator rest before middle pending stands fits inductionHypothesis =>
      by_cases tight : bound ≤ operator.strength
      · have applied : (operator.apply value).Means operator.strength (middle ++ back) :=
          stands.apply (means.mono demand)
        rw [Rulebook.collapse, if_pos tight, List.append_assoc]
        exact inductionHypothesis applied fits tight
      · rw [Rulebook.collapse, if_neg tight]
        refine ⟨before ++ middle, back, rfl, .cons pending stands fits, means.mono low, ?_⟩
        intro other isHead
        cases isHead
        exact Nat.not_le.mp tight

/-- The chain that a relation would continue, or one without links. -/
theorem chain (pending : Pending floor operators front) (means : value.Means 10 back)
    (low : floor ≤ 5) {rest : List Operator} {left : Operand} {links : List (Relation × Expr)}
    (isChain : Expression.chain operators value = (rest, left, links)) :
    ∃ before middle after, front ++ back = before ++ (middle ++ after) ∧
      Pending floor rest before ∧ left.Means 6 middle ∧ Derives (.many .link) after links ∧
      demanded floor rest ≤ 5 := by
  have ready : demanded floor operators ≤ 10 :=
    Nat.le_trans (demanded_le (Nat.le_trans low (by decide)) operators) (by decide)
  obtain ⟨before, after, isSplit, remaining, lastMeans, loose⟩ :=
    pending.collapse means ready (by decide : 6 ≤ 10)
  rw [isSplit]
  rw [Expression.chain] at isChain
  rcases collapsed : Rulebook.collapse 6 operators value with ⟨others, last⟩
  rw [collapsed] at isChain remaining lastMeans loose
  split at isChain
  · rename_i isLeft
    cases isLeft
    cases isChain
    cases remaining with
    | cons outer stands fits =>
        cases stands with
        | compare leftMeans linksDerive markDerives =>
            have link := Derives.link markDerives (lastMeans.derives .arith (Nat.le_refl 6))
            refine ⟨_, _, _, ?_, outer, leftMeans, .another linksDerive link, fits⟩
            simp only [List.append_assoc]
  · rename_i notCompare isLeft
    cases isLeft
    cases isChain
    refine ⟨before, after, [], by rw [List.append_nil], remaining, lastMeans, .nothing, ?_⟩
    refine demanded_le_of_looser low ?_
    intro operator isHead
    have below : operator.strength < 6 := loose operator isHead
    have notFive : operator.strength ≠ 5 := by
      intro isFive
      obtain ⟨first, earlier, relation, rfl⟩ := operator.eq_compare_of_strength isFive
      obtain ⟨others, rfl⟩ := List.head?_eq_some_iff.mp isHead
      exact notCompare _ _ _ _ rfl
    omega

end Pending

end Rulebook
