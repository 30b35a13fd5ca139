import Rulebook.Proofs.Grammar.Run

/-!
# Every expression of the grammar is read

Reading the tokens of an expression leaves its outermost operators pending, because more may
follow. What is left is described by the value that applying these operators would give. For each
rule of the grammar that forms an expression there is a lemma: if the parts are read, the whole is.
-/

namespace Rulebook

open Grammar

namespace Grammar

@[simp]
theorem extent_single (token : Located Token) : extent [token] = token.span := rfl

theorem extent_append {front back : Tokens} (frontNonempty : front ≠ [])
    (backNonempty : back ≠ []) :
    extent (front ++ back) = (extent front).through (extent back) := by
  obtain ⟨first, rest, rfl⟩ := List.exists_cons_of_ne_nil frontNonempty
  obtain ⟨last, isLast⟩ : ∃ last, back.getLast? = some last :=
    ⟨_, List.getLast?_eq_some_getLast backNonempty⟩
  rw [extent, extent, extent, Span.through, List.getLast?_append, isLast, Option.some_or]
  rfl

theorem extent_cons {token : Located Token} {tokens : Tokens} (nonempty : tokens ≠ []) :
    extent (token :: tokens) = token.span.through (extent tokens) :=
  extent_append (List.cons_ne_nil token []) nonempty

theorem extent_between {front back : Tokens} (frontNonempty : front ≠ []) (middle : Tokens)
    (backNonempty : back ≠ []) :
    extent (front ++ middle ++ back) = (extent front).through (extent back) := by
  rw [extent_append (List.append_ne_nil_of_left_ne_nil frontNonempty middle) backNonempty]
  obtain ⟨first, rest, rfl⟩ := List.exists_cons_of_ne_nil frontNonempty
  rfl

end Grammar

/-- The operand that the last token completed, if it did. -/
def Focus.value? : Focus → Option Operand
  | .name text span => some ⟨span, .name span text⟩
  | .strings content extent => some ⟨extent, .string extent content⟩
  | .operand value => some value
  | _ => none

/-- Applying the operators read since the given ones yields the operand, and all of them bind at
least as tightly as `floor`. -/
def Held (floor : Nat) (operators : List Operator) (brackets : List (Bracket × List Operator))
    (state : Expression) (operand : Operand) : Prop :=
  ∃ pending focus value,
    state = ⟨pending ++ operators, brackets, focus⟩ ∧ focus.value? = some value ∧
      (∀ operator ∈ pending, floor ≤ operator.strength) ∧ settle pending value = operand

/-- The loosest operator that an expression of the kind can leave pending. -/
def Grammar.Level.floor : Level → Nat
  | .test => 1
  | .orTest => 2
  | .andTest => 3
  | .notTest => 4
  | .comparison => 5
  | .arith => 6
  | .term => 7
  | .factor | .power => 8
  | .primary | .atom => 10

/-- The tightest operator whose right operand may be an expression of the kind. -/
def Grammar.Level.limit : Level → Nat
  | .test | .orTest => 1
  | .andTest => 2
  | .notTest | .comparison => 4
  | .arith => 5
  | .term => 6
  | _ => 9

/-- An expression of the kind may follow the operators and brackets. The test of a conditional
expression is not itself conditional. -/
def Grammar.Level.Admits (level : Level) (operators : List Operator)
    (brackets : List (Bracket × List Operator)) : Prop :=
  (∀ operator ∈ operators.head?, operator.strength ≤ level.limit) ∧
    (level = .test → ∀ body outside, brackets.head? ≠ some (.conditional body, outside))

/-- Wherever an expression of the kind may come, the tokens are taken and give the operand. -/
def Reads (level : Level) (tokens : Tokens) (operand : Operand) : Prop :=
  ∀ operators brackets, level.Admits operators brackets →
    ∃ state, Leads Expression.advance ⟨operators, brackets, .wanted⟩ tokens state ∧
      Held level.floor operators brackets state operand

theorem Reads.ne_nil {level : Level} {tokens : Tokens} {operand : Operand}
    (reads : Reads level tokens operand) : tokens ≠ [] := by
  rintro rfl
  obtain ⟨state, run, pending, focus, value, isState, held, -, -⟩ :=
    reads [] [] ⟨by simp, by simp⟩
  cases run
  injection isState with _ _ isFocus
  rw [← isFocus] at held
  cases held

@[simp]
theorem settle_append (first second : List Operator) (value : Operand) :
    settle (first ++ second) value = settle second (settle first value) :=
  List.foldl_append

/-- Collapsing applies the operators that bind tightly enough and stops at the first that does not.
-/
theorem collapse_append {strength : Nat} {pending operators : List Operator}
    (tight : ∀ operator ∈ pending, strength ≤ operator.strength)
    (loose : ∀ operator ∈ operators.head?, operator.strength < strength) (value : Operand) :
    collapse strength (pending ++ operators) value = (operators, settle pending value) := by
  induction pending generalizing value with
  | nil =>
      cases operators with
      | nil => rfl
      | cons operator rest =>
          have looser : operator.strength < strength := loose operator rfl
          rw [List.nil_append, collapse, if_neg (Nat.not_le.mpr looser)]
          rfl
  | cons operator rest inductionHypothesis =>
      have tighter : strength ≤ operator.strength := tight operator List.mem_cons_self
      rw [List.cons_append, collapse, if_pos tighter,
        inductionHypothesis fun other member => tight other (List.mem_cons_of_mem _ member)]
      rfl

private theorem Operator.strength_le (operator : Operator) : operator.strength ≤ 9 := by
  cases operator with
  | connective op left =>
      rw [Operator.strength]
      cases op <;> decide
  | arithmetic op left =>
      rw [Operator.strength]
      cases op <;> decide
  | otherwise | not | compare | signed =>
      rw [Operator.strength]
      decide

namespace Expression

/-- A token after a complete operand, unless it is a further string or makes the operand the name
of an argument. -/
theorem feed_of_value {operators : List Operator} {brackets : List (Bracket × List Operator)}
    {focus : Focus} {value : Operand} {token : Located Token} (held : focus.value? = some value)
    (notString : ∀ content, token.node ≠ .string content)
    (notAssign : token.node = .symbol .assign → brackets = []) :
    feed ⟨operators, brackets, focus⟩ token =
      feedAfter ⟨operators, brackets, focus⟩ value token := by
  cases focus with
  | name text span =>
      cases held
      unfold feed
      dsimp only
      split
      · rename_i assigned
        cases notAssign assigned
      · rfl
  | strings content extent =>
      cases held
      unfold feed
      dsimp only
      split
      · rename_i further isString
        exact absurd isString (notString further)
      · rfl
  | operand value =>
      cases held
      rfl
  | wanted | field | notIn | identity => cases held

private theorem feed_of_binary {operators : List Operator}
    {brackets : List (Bracket × List Operator)}
    {focus : Focus} {value : Operand} {token : Located Token} {op : BinaryOp}
    (held : focus.value? = some value) (spelled : token.node.binary? = some op) :
    feed ⟨operators, brackets, focus⟩ token =
      some (feedBinary ⟨operators, brackets, focus⟩ value op) := by
  have notString : ∀ content, token.node ≠ .string content := by
    intro content isString
    rw [isString] at spelled
    cases spelled
  have notAssign : token.node = .symbol .assign → brackets = [] := by
    intro isAssign
    rw [isAssign] at spelled
    cases spelled
  rw [feed_of_value held notString notAssign, feedAfter, spelled]

end Expression

/-- The operators that first apply what binds at least as tightly, and then wait with the result on
their left. -/
inductive BinaryOp.Collects : BinaryOp → (Operand → Operator) → Prop
  | connective (op : Connective) : Collects (.connective op) (.connective op)
  | arithmetic {op : Arithmetic} : op ≠ .pow → Collects (.arithmetic op) (.arithmetic op)

namespace BinaryOp.Collects

variable {op : BinaryOp} {operator : Operand → Operator}

theorem strength_eq (collects : op.Collects operator) (left right : Operand) :
    (operator left).strength = (operator right).strength := by
  cases collects with
  | connective _ | arithmetic _ => rfl

/-- Operators that bind as tightly are applied first, and the new one waits with the result. -/
theorem feedBinary_eq {operators rest : List Operator} {brackets : List (Bracket × List Operator)}
    {focus : Focus} {value left : Operand} (collects : op.Collects operator)
    (collapsed : collapse (operator left).strength operators value = (rest, left)) :
    Expression.feedBinary ⟨operators, brackets, focus⟩ value op =
      .more ⟨operator left :: rest, brackets, .wanted⟩ := by
  cases collects with
  | connective op =>
      rw [Operator.strength] at collapsed
      simp only [Expression.feedBinary, collapsed]
      rfl
  | @arithmetic op notPow =>
      rw [Operator.strength] at collapsed
      cases op with
      | pow => exact absurd rfl notPow
      | add | sub | mul | div | floorDiv | mod =>
          simp only [Expression.feedBinary, collapsed]
          rfl

end BinaryOp.Collects

/-- Tokens that come after a complete expression and are no part of it. -/
inductive Token.EndsExpression : Token → Prop
  | newline : EndsExpression .newline
  | otherwise : EndsExpression (.keyword .elseKw)
  | colon : EndsExpression (.symbol .colon)
  | comma : EndsExpression (.symbol .comma)
  | rightParen : EndsExpression (.symbol .rightParen)
  | rightBracket : EndsExpression (.symbol .rightBracket)
  | assign : EndsExpression (.symbol .assign)
  | plusAssign : EndsExpression (.symbol .plusAssign)
  | minusAssign : EndsExpression (.symbol .minusAssign)
  | starAssign : EndsExpression (.symbol .starAssign)
  | slashAssign : EndsExpression (.symbol .slashAssign)

theorem Token.EndsExpression.ne_string {token : Token} (ends : token.EndsExpression)
    (content : String) : token ≠ .string content := by
  rintro rfl
  cases ends

namespace Expression

/-- A token that ends an expression applies all waiting operators and closes the innermost bracket.
-/
theorem feedAfter_of_endsExpression {expression : Expression} {value : Operand}
    {token : Located Token} (ends : token.node.EndsExpression) :
    expression.feedAfter value token =
      match expression.brackets with
      | [] => some (.done (settle expression.operators value))
      | (bracket, outside) :: outer =>
          closeAround? bracket outside outer (settle expression.operators value) token := by
  obtain ⟨node, span⟩ := token
  cases ends <;> rfl

end Expression

namespace Held

variable {floor : Nat} {operators : List Operator} {brackets : List (Bracket × List Operator)}
  {state : Expression} {operand : Operand} {token : Located Token}

/-- An expression outside of brackets is complete before a token that ends it. -/
theorem feed_done (held : Held floor [] [] state operand) (ends : token.node.EndsExpression) :
    state.feed token = some (.done operand) := by
  obtain ⟨pending, focus, value, rfl, isValue, -, rfl⟩ := held
  rw [Expression.feed_of_value isValue ends.ne_string fun _ => rfl,
    Expression.feedAfter_of_endsExpression ends, List.append_nil]

/-- In brackets, a token that ends an expression closes them around it. -/
theorem feed_close {bracket : Bracket} {outside : List Operator}
    {outer : List (Bracket × List Operator)}
    (held : Held floor [] ((bracket, outside) :: outer) state operand)
    (ends : token.node.EndsExpression) (notAssign : token.node ≠ .symbol .assign) :
    state.feed token = Expression.closeAround? bracket outside outer operand token := by
  obtain ⟨pending, focus, value, rfl, isValue, -, rfl⟩ := held
  rw [Expression.feed_of_value isValue ends.ne_string fun isAssign => absurd isAssign notAssign,
    Expression.feedAfter_of_endsExpression ends, List.append_nil]

/-- An operator between operands takes what has been read as its left operand. -/
theorem advance_collects {op : BinaryOp} {operator : Operand → Operator}
    (collects : op.Collects operator) (held : Held floor operators brackets state operand)
    (spelled : token.node.binary? = some op) (tight : (operator operand).strength ≤ floor)
    (loose : ∀ other ∈ operators.head?, other.strength < (operator operand).strength) :
    state.advance token = some ⟨operator operand :: operators, brackets, .wanted⟩ := by
  obtain ⟨pending, focus, value, rfl, isValue, above, rfl⟩ := held
  have collapsed :=
    collapse_append (fun other member => Nat.le_trans tight (above other member)) loose value
  rw [Expression.advance_eq_some_iff, Expression.feed_of_binary isValue spelled,
    collects.feedBinary_eq collapsed]

/-- After a primary expression no operator is left pending. -/
theorem focus_of_primary (held : Held 10 operators brackets state operand) :
    ∃ focus, state = ⟨operators, brackets, focus⟩ ∧ focus.value? = some operand := by
  obtain ⟨pending, focus, value, rfl, isValue, above, rfl⟩ := held
  cases pending with
  | nil => exact ⟨focus, rfl, isValue⟩
  | cons operator rest =>
      have impossible : 10 ≤ operator.strength := above operator List.mem_cons_self
      have bound : operator.strength ≤ 9 := operator.strength_le
      omega

end Held

/-! ## Operators -/

theorem Grammar.extent_infixed {front back : Tokens} {token : Located Token}
    (frontNonempty : front ≠ []) (backNonempty : back ≠ []) :
    extent (front ++ token :: back) = (extent front).through (extent back) := by
  rw [List.append_cons]
  exact extent_between frontNonempty [token] backNonempty

namespace Reads

variable {level left right : Level} {front back tokens : Tokens} {token : Located Token}
  {operand leftOperand : Operand} {operator : Operator}

/-- The right operand of an operator completes it. -/
theorem leads_apply {floor : Nat} {operators : List Operator}
    {brackets : List (Bracket × List Operator)} {start next : Expression}
    (reads : Reads right back operand) (admits : right.Admits (operator :: operators) brackets)
    (floorOperator : floor ≤ operator.strength) (floorRight : floor ≤ right.floor)
    (run : Leads Expression.advance start front next)
    (resumes : Resumes Expression.advance next ⟨operator :: operators, brackets, .wanted⟩) :
    ∃ state, Leads Expression.advance start (front ++ back) state ∧
      Held floor operators brackets state (operator.apply operand) := by
  obtain ⟨_, rest, pending, focus, value, rfl, isValue, above, settled⟩ := reads _ _ admits
  refine ⟨_, run.append (resumes.leads reads.ne_nil rest), pending ++ [operator], focus, value,
    ?_, isValue, ?_, ?_⟩
  · rw [List.append_assoc, List.singleton_append]
  · intro other member
    rcases List.mem_append.mp member with inside | isOperator
    · exact Nat.le_trans floorRight (above other inside)
    · cases List.mem_singleton.mp isOperator
      exact floorOperator
  · rw [settle_append, settled]
    rfl

/-- An expression of a tighter kind is read wherever one of a looser kind may come. -/
theorem tighter (reads : Reads level.tighter tokens operand) : Reads level tokens operand := by
  intro operators brackets admits
  have limit : level.limit ≤ level.tighter.limit := by cases level <;> decide
  have floor : level.floor ≤ level.tighter.floor := by cases level <;> decide
  have notTest : level.tighter ≠ .test := by cases level <;> decide
  obtain ⟨_, run, pending, focus, value, rfl, isValue, above, settled⟩ := reads operators brackets
    ⟨fun other member => Nat.le_trans (admits.1 other member) limit,
      fun isTest => absurd isTest notTest⟩
  exact ⟨_, run, pending, focus, value, rfl, isValue,
    fun other member => Nat.le_trans floor (above other member), settled⟩

/-- An operator between two operands. -/
theorem joined
    (takes : ∀ operators brackets state, Held left.floor operators brackets state leftOperand →
      (∀ other ∈ operators.head?, other.strength ≤ level.limit) →
        state.advance token = some ⟨operator :: operators, brackets, .wanted⟩)
    (leftReads : Reads left front leftOperand) (rightReads : Reads right back operand)
    (limitRight : operator.strength ≤ right.limit) (floorOperator : level.floor ≤ operator.strength)
    (fits : level.limit ≤ left.limit ∧ level.floor ≤ right.floor ∧ left ≠ .test ∧ right ≠ .test) :
    Reads level (front ++ token :: back) (operator.apply operand) := by
  intro operators brackets admits
  obtain ⟨limitLeft, floorRight, leftNotTest, rightNotTest⟩ := fits
  obtain ⟨state, run, held⟩ := leftReads operators brackets
    ⟨fun other member => Nat.le_trans (admits.1 other member) limitLeft,
      fun isTest => absurd isTest leftNotTest⟩
  have taken := takes operators brackets state held admits.1
  have admitsRight : right.Admits (operator :: operators) brackets :=
    ⟨fun other member => by cases member; exact limitRight,
      fun isTest => absurd isTest rightNotTest⟩
  rw [List.append_cons]
  exact rightReads.leads_apply admitsRight floorOperator floorRight
    (run.append (.single taken)) (.refl _)

/-- An operator before its operand. -/
theorem led
    (takes : ∀ operators brackets, level.Admits operators brackets →
      Expression.advance ⟨operators, brackets, .wanted⟩ token =
        some ⟨operator :: operators, brackets, .wanted⟩)
    (limit : operator.strength ≤ level.limit) (floor : level.floor ≤ operator.strength)
    (notTest : level ≠ .test) (reads : Reads level tokens operand) :
    Reads level (token :: tokens) (operator.apply operand) := by
  intro operators brackets admits
  have admitsOperand : level.Admits (operator :: operators) brackets :=
    ⟨fun other member => by cases member; exact limit, fun isTest => absurd isTest notTest⟩
  exact reads.leads_apply admitsOperand floor (Nat.le_refl _)
    (.single (takes operators brackets admits)) (.refl _)

end Reads

/-- The tokens are read as a node over their extent. -/
def Forms (level : Level) (tokens : Tokens) (node : Span → Expr) : Prop :=
  Reads level tokens ⟨extent tokens, node (extent tokens)⟩

/-- The tokens are read as an expression. -/
def ReadsExpr (level : Level) (tokens : Tokens) (expr : Expr) : Prop :=
  Reads level tokens ⟨extent tokens, expr⟩

section Rules

variable {level rightLevel : Level} {front back tokens : Tokens} {left right expr : Expr}
  {token : Located Token} {span : Span}

/-- An operator between operands whose left side is of the kind of the whole. -/
theorem reads_collects {op : BinaryOp} {operator : Operand → Operator}
    (collects : op.Collects operator) (spelled : token.node.binary? = some op)
    (strength : (operator ⟨extent front, left⟩).strength = level.floor)
    (fits : level.limit < level.floor ∧ level.floor ≤ rightLevel.limit ∧
      level.floor ≤ rightLevel.floor ∧ level ≠ .test ∧ rightLevel ≠ .test)
    (leftReads : ReadsExpr level front left) (rightReads : ReadsExpr rightLevel back right) :
    Reads level (front ++ token :: back)
      ((operator ⟨extent front, left⟩).apply ⟨extent back, right⟩) := by
  obtain ⟨loose, limitRight, floorRight, leftNotTest, rightNotTest⟩ := fits
  have takes : ∀ operators brackets state,
      Held level.floor operators brackets state ⟨extent front, left⟩ →
      (∀ other ∈ operators.head?, other.strength ≤ level.limit) →
        state.advance token =
          some ⟨operator ⟨extent front, left⟩ :: operators, brackets, .wanted⟩ := by
    intro operators brackets state held limited
    refine held.advance_collects collects spelled (Nat.le_of_eq strength) ?_
    intro other member
    have bound := limited other member
    omega
  exact Reads.joined takes leftReads rightReads (Nat.le_trans (Nat.le_of_eq strength) limitRight)
    (Nat.le_of_eq strength.symm) ⟨Nat.le_refl _, floorRight, leftNotTest, rightNotTest⟩

theorem forms_connective {op : Connective} (spelled : token.node.binary? = some (.connective op))
    (strength : op.strength = level.floor)
    (fits : level.limit < level.floor ∧ level.floor ≤ rightLevel.limit ∧
      level.floor ≤ rightLevel.floor ∧ level ≠ .test ∧ rightLevel ≠ .test)
    (leftReads : ReadsExpr level front left) (rightReads : ReadsExpr rightLevel back right) :
    Forms level (front ++ token :: back) (.connective · op left right) := by
  rw [Forms, extent_infixed leftReads.ne_nil rightReads.ne_nil]
  exact reads_collects (.connective op) spelled strength fits leftReads rightReads

theorem forms_arithmetic {op : Arithmetic} (notPow : op ≠ .pow)
    (spelled : token.node.binary? = some (.arithmetic op)) (strength : op.strength = level.floor)
    (fits : level.limit < level.floor ∧ level.floor ≤ rightLevel.limit ∧
      level.floor ≤ rightLevel.floor ∧ level ≠ .test ∧ rightLevel ≠ .test)
    (leftReads : ReadsExpr level front left) (rightReads : ReadsExpr rightLevel back right) :
    Forms level (front ++ token :: back) (.arithmetic · op left right) := by
  rw [Forms, extent_infixed leftReads.ne_nil rightReads.ne_nil]
  exact reads_collects (.arithmetic notPow) spelled strength fits leftReads rightReads

/-- A power binds its left side more tightly than a sign, and its right side less. -/
theorem forms_power (leftReads : ReadsExpr .primary front left)
    (rightReads : ReadsExpr .factor back right) :
    Forms .power (front ++ ⟨.symbol .starStar, span⟩ :: back)
      (.arithmetic · .pow left right) := by
  have takes : ∀ operators brackets state,
      Held Level.primary.floor operators brackets state ⟨extent front, left⟩ →
      (∀ other ∈ operators.head?, other.strength ≤ Level.power.limit) →
        state.advance ⟨.symbol .starStar, span⟩ =
          some ⟨.arithmetic .pow ⟨extent front, left⟩ :: operators, brackets, .wanted⟩ := by
    intro operators brackets state held _
    obtain ⟨focus, rfl, isValue⟩ := held.focus_of_primary
    rw [Expression.advance_eq_some_iff, Expression.feed_of_binary isValue rfl]
    rfl
  rw [Forms, extent_infixed leftReads.ne_nil rightReads.ne_nil]
  exact Reads.joined takes leftReads rightReads (Nat.le_refl 9) (by decide : 8 ≤ 9) (by decide)

theorem forms_not (reads : ReadsExpr .notTest tokens expr) :
    Forms .notTest (⟨.keyword .notKw, span⟩ :: tokens) (.not · expr) := by
  have takes : ∀ operators brackets, Level.notTest.Admits operators brackets →
      Expression.advance ⟨operators, brackets, .wanted⟩ ⟨.keyword .notKw, span⟩ =
        some ⟨.not span :: operators, brackets, .wanted⟩ := by
    intro operators brackets admits
    have allowed : Expression.allowsNot ⟨operators, brackets, .wanted⟩ = true := by
      rw [Expression.allowsNot, Option.all_eq_true]
      intro other isHead
      exact decide_eq_true (admits.1 other isHead)
    have fed : Expression.feed ⟨operators, brackets, .wanted⟩ ⟨.keyword .notKw, span⟩ =
        if Expression.allowsNot ⟨operators, brackets, .wanted⟩ then
          some (Expression.await ⟨operators, brackets, .wanted⟩ (.not span)) else none := rfl
    rw [Expression.advance_eq_some_iff, fed, if_pos allowed]
    rfl
  rw [Forms, extent_cons reads.ne_nil]
  exact Reads.led takes (Nat.le_refl 4) (Nat.le_refl 4) (by decide) reads

theorem forms_signed {sign : Sign} (spelled : token.node.sign? = some sign)
    (reads : ReadsExpr .factor tokens expr) :
    Forms .factor (token :: tokens) (.signed · sign expr) := by
  have takes : ∀ operators brackets, Level.factor.Admits operators brackets →
      Expression.advance ⟨operators, brackets, .wanted⟩ token =
        some ⟨.signed token.span sign :: operators, brackets, .wanted⟩ := by
    intro operators brackets _
    have noConstant : token.node.constant? token.span = none := by
      obtain ⟨node, span⟩ := token
      unfold Token.sign? at spelled
      split at spelled
      · rename_i isMinus
        rw [isMinus]
        rfl
      · rename_i isPlus
        rw [isPlus]
        rfl
      · cases spelled
    rw [Expression.advance_eq_some_iff]
    unfold Expression.feed Expression.feedWanted
    simp only [noConstant, spelled]
    rfl
  rw [Forms, extent_cons reads.ne_nil]
  exact Reads.led takes (by decide : 8 ≤ 9) (Nat.le_refl 8) (by decide) reads

/-- The word `if` ends the body and opens the test like a bracket, which the word `else` closes. -/
theorem forms_conditional {middle : Tokens} {body test otherwise : Expr} {ifSpan elseSpan : Span}
    (bodyReads : ReadsExpr .orTest front body) (testReads : ReadsExpr .orTest middle test)
    (otherwiseReads : ReadsExpr .test back otherwise) :
    Forms .test
      (front ++ ⟨.keyword .ifKw, ifSpan⟩ :: middle ++ ⟨.keyword .elseKw, elseSpan⟩ :: back)
      (.conditional · body test otherwise) := by
  have isExtent :
      extent (front ++ ⟨.keyword .ifKw, ifSpan⟩ :: middle ++
        ⟨.keyword .elseKw, elseSpan⟩ :: back) = (extent front).through (extent back) := by
    rw [List.append_assoc, List.cons_append, extent_infixed bodyReads.ne_nil (by simp),
      extent_infixed testReads.ne_nil otherwiseReads.ne_nil]
    rfl
  rw [Forms, isExtent]
  intro operators brackets admits
  have notConditional := admits.2 rfl
  obtain ⟨state, bodyRun, pending, focus, value, rfl, isValue, above, settled⟩ :=
    bodyReads operators brackets ⟨admits.1, fun isTest => by cases isTest⟩
  have entered : Expression.advance ⟨pending ++ operators, brackets, focus⟩
      ⟨.keyword .ifKw, ifSpan⟩ =
        some ⟨[], (.conditional ⟨extent front, body⟩, operators) :: brackets, .wanted⟩ := by
    have collapsed := collapse_append above
      (fun other member => Nat.lt_succ_of_le (admits.1 other member)) value
    rw [settled] at collapsed
    rw [Expression.advance_eq_some_iff, Expression.feed_of_value isValue (by simp) (by simp)]
    unfold Expression.feedAfter
    simp only [Token.binary?]
    split
    · exact absurd rfl (notConditional _ _)
    · rw [show Level.orTest.floor = 2 from rfl] at collapsed
      rw [collapsed]
      rfl
  obtain ⟨state, testRun, held⟩ :=
    testReads [] ((.conditional ⟨extent front, body⟩, operators) :: brackets)
      ⟨by simp, fun isTest => by cases isTest⟩
  have left : state.advance ⟨.keyword .elseKw, elseSpan⟩ =
      some ⟨.otherwise ⟨extent front, body⟩ test :: operators, brackets, .wanted⟩ := by
    rw [Expression.advance_eq_some_iff, held.feed_close .otherwise (by simp)]
    rfl
  have admitsOtherwise :
      Level.test.Admits (.otherwise ⟨extent front, body⟩ test :: operators) brackets :=
    ⟨fun other member => by cases member; exact Nat.le_refl 1, fun _ => notConditional⟩
  have run := (bodyRun.append (.cons entered testRun)).append (.single left)
  rw [List.append_cons _ _ back]
  exact otherwiseReads.leads_apply admitsOtherwise (Nat.le_refl 1) (Nat.le_refl 1) run (.refl _)

end Rules

/-! ## Comparison chains -/

namespace Expression

variable {operators pending : List Operator} {left value : Operand}
  {links : List (Relation × Expr)}

private theorem chain_append
    (tight : ∀ operator ∈ pending, 6 ≤ operator.strength)
    (loose : ∀ operator ∈ operators.head?, operator.strength ≤ 4) :
    chain (pending ++ operators) value = (operators, settle pending value, []) := by
  have collapsed := collapse_append tight
    (fun operator member => Nat.lt_of_le_of_lt (loose operator member) (by decide)) value
  rw [chain, collapsed]
  split
  · rename_i compares
    cases compares
    exact absurd (loose _ rfl) (by decide : ¬ 5 ≤ 4)
  · rename_i compares
    cases compares
    rfl

private theorem chain_append_compare {relation : Relation}
    (tight : ∀ operator ∈ pending, 6 ≤ operator.strength) :
    chain (pending ++ .compare left links relation :: operators) value =
      (operators, left, links ++ [(relation, (settle pending value).expr)]) := by
  have loose : ∀ operator ∈ (Operator.compare left links relation :: operators).head?,
      operator.strength < 6 := by
    intro operator member
    cases member
    exact Nat.lt_succ_self 5
  rw [chain, collapse_append tight loose]

end Expression

/-- After a comparison chain so far, the tokens lead to where the next link's right side is
wanted. -/
def Relates (tokens : Tokens) (relation : Relation) : Prop :=
  ∀ operators brackets focus value rest left links, focus.value? = some value →
    Expression.chain operators value = (rest, left, links) →
      ∃ next, Leads Expression.advance ⟨operators, brackets, focus⟩ tokens next ∧
        Resumes Expression.advance next ⟨.compare left links relation :: rest, brackets, .wanted⟩

theorem relates_of_binary {token : Located Token} {relation : Relation}
    (spelled : token.node.binary? = some (.relation relation)) : Relates [token] relation := by
  intro operators brackets focus value rest left links isValue isChain
  refine ⟨_, .single ?_, .refl _⟩
  rw [Expression.advance_eq_some_iff, Expression.feed_of_binary isValue spelled]
  simp only [Expression.feedBinary, isChain]
  rfl

theorem relates_notIn {first second : Span} :
    Relates [⟨.keyword .notKw, first⟩, ⟨.keyword .inKw, second⟩] .notIn := by
  intro operators brackets focus value rest left links isValue isChain
  have negated : Expression.advance ⟨operators, brackets, focus⟩ ⟨.keyword .notKw, first⟩ =
      some ⟨rest, brackets, .notIn left links⟩ := by
    rw [Expression.advance_eq_some_iff, Expression.feed_of_value isValue (by simp) (by simp)]
    unfold Expression.feedAfter
    simp only [Token.binary?, isChain]
    rfl
  exact ⟨_, .cons negated (.single rfl), .refl _⟩

/-- The state after `is`, which any token but `not` takes to the right side. -/
theorem advance_identity {operators rest : List Operator}
    {brackets : List (Bracket × List Operator)} {focus : Focus} {value left : Operand}
    {links : List (Relation × Expr)} {span : Span} (isValue : focus.value? = some value)
    (isChain : Expression.chain operators value = (rest, left, links)) :
    Expression.advance ⟨operators, brackets, focus⟩ ⟨.keyword .isKw, span⟩ =
      some ⟨rest, brackets, .identity left links⟩ := by
  rw [Expression.advance_eq_some_iff, Expression.feed_of_value isValue (by simp) (by simp)]
  unfold Expression.feedAfter
  simp only [Token.binary?, isChain]
  rfl

/-- After the word `is` the right side starts at once, since no operand of a comparison starts with
`not`. -/
theorem relates_same {span : Span} : Relates [⟨.keyword .isKw, span⟩] .same := by
  intro operators brackets focus value rest left links isValue isChain
  refine ⟨_, .single (advance_identity isValue isChain), ?_⟩
  intro token next taken
  rw [Expression.advance_eq_some_iff] at taken ⊢
  unfold Expression.feed
  dsimp only
  split
  · rename_i isNot
    obtain ⟨node, span⟩ := token
    cases isNot
    cases taken
  · exact taken

theorem relates_notSame {first second : Span} :
    Relates [⟨.keyword .isKw, first⟩, ⟨.keyword .notKw, second⟩] .notSame := by
  intro operators brackets focus value rest left links isValue isChain
  exact ⟨_, .cons (advance_identity isValue isChain) (.single rfl), .refl _⟩

/-- A relation and its right side are read. -/
def Links (tokens : Tokens) (link : Relation × Expr) : Prop :=
  ∃ front back, tokens = front ++ back ∧ Relates front link.1 ∧ ReadsExpr .arith back link.2

/-- The links read so far belong to one chain, which more links may continue. -/
theorem leads_links {front tokens : Tokens} {left : Expr} {links : List (Relation × Expr)}
    {operators : List Operator} {brackets : List (Bracket × List Operator)}
    (leftReads : ReadsExpr .arith front left) (admits : Level.comparison.Admits operators brackets)
    (sequence : Sequence Links tokens links) :
    ∃ pending focus value,
      Leads Expression.advance ⟨operators, brackets, .wanted⟩ (front ++ tokens)
        ⟨pending, brackets, focus⟩ ∧ focus.value? = some value ∧
        Expression.chain pending value = (operators, ⟨extent front, left⟩, links) := by
  induction sequence with
  | nil =>
      obtain ⟨_, run, pending, focus, value, rfl, isValue, above, settled⟩ :=
        leftReads operators brackets
          ⟨fun other member => Nat.le_succ_of_le (admits.1 other member),
            fun isTest => by cases isTest⟩
      rw [List.append_nil]
      refine ⟨_, focus, value, run, isValue, ?_⟩
      rw [Expression.chain_append above admits.1, settled]
  | @snoc before after links link _ linked inductionHypothesis =>
      obtain ⟨pending, focus, value, run, isValue, isChain⟩ := inductionHypothesis
      obtain ⟨mark, back, rfl, relates, rightReads⟩ := linked
      obtain ⟨next, marked, resumes⟩ :=
        relates pending brackets focus value operators ⟨extent front, left⟩ links isValue isChain
      obtain ⟨_, rest, pending, focus, value, rfl, isValue, above, settled⟩ :=
        rightReads (.compare ⟨extent front, left⟩ links link.1 :: operators) brackets
          ⟨fun other member => by cases member; exact Nat.le_refl 5, fun isTest => by cases isTest⟩
      have whole := (run.append marked).append (resumes.leads rightReads.ne_nil rest)
      rw [List.append_assoc, List.append_assoc] at whole
      refine ⟨_, focus, value, whole, isValue, ?_⟩
      rw [Expression.chain_append_compare above, settled]

/-- A comparison is read with all its links. -/
theorem forms_comparison {front before after : Tokens} {left : Expr}
    {links : List (Relation × Expr)} {link : Relation × Expr}
    (leftReads : ReadsExpr .arith front left) (sequence : Sequence Links before links)
    (linked : Links after link) :
    Forms .comparison (front ++ (before ++ after)) (.compare · left (links ++ [link])) := by
  obtain ⟨mark, back, rfl, relates, rightReads⟩ := linked
  have isExtent : extent (front ++ (before ++ (mark ++ back))) =
      (extent front).through (extent back) := by
    rw [← List.append_assoc before, ← List.append_assoc front]
    exact extent_between leftReads.ne_nil (before ++ mark) rightReads.ne_nil
  rw [Forms, isExtent]
  intro operators brackets admits
  obtain ⟨pending, focus, value, run, isValue, isChain⟩ := leads_links leftReads admits sequence
  obtain ⟨next, marked, resumes⟩ :=
    relates pending brackets focus value operators ⟨extent front, left⟩ links isValue isChain
  have admitsRight :
      Level.arith.Admits (.compare ⟨extent front, left⟩ links link.1 :: operators) brackets :=
    ⟨fun other member => by cases member; exact Nat.le_refl 5, fun isTest => by cases isTest⟩
  rw [← List.append_assoc, ← List.append_assoc]
  exact rightReads.leads_apply admitsRight (Nat.le_refl 5) (by decide : 5 ≤ 6)
    (run.append marked) resumes

end Rulebook
