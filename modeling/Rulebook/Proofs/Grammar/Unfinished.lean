import Rulebook.Proofs.Grammar.Pending

/-!
# What an unfinished expression stands for

The brackets still open, the operators that wait inside and outside of them and what the last
token left stand together for all tokens read so far. Every token keeps this, and the value that a
token shows to be complete is an expression of the grammar over the tokens before it.
-/

namespace Rulebook

open Grammar

/-! ## Open brackets -/

/-- The bracket stands for its opening and its complete items, each with the comma after it. -/
inductive Bracket.Stands : Bracket → Tokens → Prop
  | conditional {body : Operand} {front : Tokens} {span : Span} :
      body.Means 2 front →
      Stands (.conditional body) (front ++ [⟨.keyword .ifKw, span⟩])
  | group {opening : Span} : Stands (.group opening) [⟨.symbol .leftParen, opening⟩]
  | tuple {opening comma : Span} {front back : Tokens} {first : Expr} {others : List Expr} :
      Derives (.expression .test) front first →
      Derives (.many (.before (.expression .test) (.symbol .comma))) back others →
      Stands (.tuple opening (first :: others))
        (⟨.symbol .leftParen, opening⟩ :: front ++ ⟨.symbol .comma, comma⟩ :: back)
  | list {opening : Span} {tokens : Tokens} {items : List Expr} :
      Derives (.many (.before (.expression .test) (.symbol .comma))) tokens items →
      Stands (.list opening items) (⟨.symbol .leftBracket, opening⟩ :: tokens)
  | call {function : Operand} {front back : Tokens} {arguments : List Argument} {opening : Span} :
      function.Means 10 front →
      Derives (.many (.before .argument (.symbol .comma))) back arguments →
      Stands (.call function arguments) (front ++ ⟨.symbol .leftParen, opening⟩ :: back)
  | keyword {function : Operand} {front back : Tokens} {arguments : List Argument}
      {name : String} {opening nameSpan mark : Span} :
      function.Means 10 front →
      Derives (.many (.before .argument (.symbol .comma))) back arguments →
      Stands (.keyword function arguments name)
        (front ++ ⟨.symbol .leftParen, opening⟩ :: back ++
          [⟨.name name, nameSpan⟩, ⟨.symbol .assign, mark⟩])
  | subscript {value : Operand} {front : Tokens} {opening : Span} :
      value.Means 10 front →
      Stands (.subscript value) (front ++ [⟨.symbol .leftBracket, opening⟩])

/-- How tightly an expression in the innermost bracket must bind. -/
def floorOf : List (Bracket × List Operator) → Nat
  | (.conditional _, _) :: _ => 2
  | _ => 1

theorem floorOf_le (brackets : List (Bracket × List Operator)) : floorOf brackets ≤ 2 := by
  unfold floorOf
  split <;> decide

/-- The open brackets, innermost first, and the operators that wait outside them stand for the
tokens. A conditional expression is the right operand of no operator but `else`. -/
inductive Opened : List (Bracket × List Operator) → Tokens → Prop
  | nil : Opened [] []
  | cons {bracket : Bracket} {outside : List Operator} {outer : List (Bracket × List Operator)}
      {front middle back : Tokens} :
      Opened outer front →
      Pending (floorOf outer) outside middle →
      bracket.Stands back →
      (∀ body, bracket = .conditional body → demanded (floorOf outer) outside ≤ 1) →
      Opened ((bracket, outside) :: outer) (front ++ middle ++ back)

/-- What the last token left stands for the tokens, before which an operand of strength `demand` is
due. -/
inductive Focus.Stands (demand : Nat) : Focus → Tokens → Prop
  | wanted : Stands demand .wanted []
  | name {text : String} {span : Span} : Stands demand (.name text span) [⟨.name text, span⟩]
  | strings {tokens : Tokens} {contents : List String} :
      Derives (.several .string) tokens contents →
      Stands demand (.strings (String.join contents) (extent tokens)) tokens
  | operand {value : Operand} {tokens : Tokens} :
      value.Means 10 tokens →
      Stands demand (.operand value) tokens
  | field {value : Operand} {front : Tokens} {span : Span} :
      value.Means 10 front →
      Stands demand (.field value) (front ++ [⟨.symbol .dot, span⟩])
  | notIn {left : Operand} {links : List (Relation × Expr)} {front middle : Tokens}
      {span : Span} :
      left.Means 6 front →
      Derives (.many .link) middle links →
      demand ≤ 5 →
      Stands demand (.notIn left links) (front ++ middle ++ [⟨.keyword .notKw, span⟩])
  | identity {left : Operand} {links : List (Relation × Expr)} {front middle : Tokens}
      {span : Span} :
      left.Means 6 front →
      Derives (.many .link) middle links →
      demand ≤ 5 →
      Stands demand (.identity left links) (front ++ middle ++ [⟨.keyword .isKw, span⟩])

theorem Grammar.extent_closed {front : Tokens} (nonempty : front ≠ []) (inside : Tokens)
    (token : Located Token) :
    extent (front ++ inside ++ [token]) = (extent front).through token.span :=
  extent_between nonempty inside (List.cons_ne_nil token [])

namespace Focus.Stands

variable {demand : Nat} {content further : String} {extent span : Span} {focus : Focus}
  {tokens : Tokens} {value left : Operand} {links : List (Relation × Expr)}

private theorem string : Stands demand (.strings content span) [⟨.string content, span⟩] := by
  have single : Derives (.several .string) [⟨.string content, span⟩] [content] :=
    .several .nothing .string
  have joined : String.join [content] = content := by simp [String.join]
  rw [← joined]
  exact .strings single

private theorem strings_append (stands : Stands demand (.strings content extent) tokens) :
    Stands demand (.strings (content ++ further) (extent.through span))
      (tokens ++ [⟨.string further, span⟩]) := by
  cases stands with
  | @strings _ contents strings =>
      cases strings with
      | @several _ front back earlier last many one =>
          have more : Derives (.several .string) (front ++ back ++ [⟨.string further, span⟩])
              (earlier ++ [last] ++ [further]) :=
            .several (.another many one) .string
          have nonempty : front ++ back ≠ [] := by
            cases one
            simp
          have isExtent := extent_append nonempty (List.cons_ne_nil ⟨.string further, span⟩ [])
          rw [← join_append_singleton]
          rw [extent_single] at isExtent
          rw [← isExtent]
          exact .strings more

private theorem field_name {text : String} (stands : Stands demand (.field value) tokens) :
    Operand.Means 10
      ⟨value.extent.through span, .attribute (value.extent.through span) value.expr text⟩
      (tokens ++ [⟨.name text, span⟩]) := by
  cases stands with
  | @field _ front dot means =>
      have named : Derives (.form .primary)
          (front ++ [⟨.symbol .dot, dot⟩] ++ [⟨.name text, span⟩])
          (.attribute · value.expr text) := by
        rw [List.append_assoc]
        exact .field (means.derives .primary (Nat.le_refl 10))
      refine .of_form named ?_
      rw [extent_closed means.ne_nil, means.2]

private theorem notIn_compare (stands : Stands demand (.notIn left links) tokens) :
    (Operator.compare left links .notIn).Stands (tokens ++ [⟨.keyword .inKw, span⟩]) ∧
      demand ≤ 5 := by
  cases stands with
  | notIn leftMeans linksDerive fits =>
      rw [List.append_assoc]
      exact ⟨.compare leftMeans linksDerive .notIn, fits⟩

private theorem identity_notSame (stands : Stands demand (.identity left links) tokens) :
    (Operator.compare left links .notSame).Stands (tokens ++ [⟨.keyword .notKw, span⟩]) ∧
      demand ≤ 5 := by
  cases stands with
  | identity leftMeans linksDerive fits =>
      rw [List.append_assoc]
      exact ⟨.compare leftMeans linksDerive .notSame, fits⟩

private theorem identity_same (stands : Stands demand (.identity left links) tokens) :
    (Operator.compare left links .same).Stands tokens ∧ demand ≤ 5 := by
  cases stands with
  | identity leftMeans linksDerive fits =>
      exact ⟨.compare leftMeans linksDerive .same, fits⟩

/-- An operand in hand is a primary expression. -/
theorem means (stands : Stands demand focus tokens) (held : focus.value? = some value) :
    value.Means 10 tokens := by
  cases stands with
  | wanted | field | notIn | identity => cases held
  | name =>
      cases held
      exact .of_atom .identifier rfl
  | strings strings =>
      cases held
      exact .of_atom (.strings strings) rfl
  | operand means =>
      cases held
      exact means

end Focus.Stands

/-- The brackets and operators stand for the tokens. -/
def Waits (operators : List Operator) (brackets : List (Bracket × List Operator))
    (tokens : Tokens) : Prop :=
  ∃ front back, tokens = front ++ back ∧ Opened brackets front ∧
    Pending (floorOf brackets) operators back

/-- The unfinished expression stands for the tokens. -/
def Expression.Stands (expression : Expression) (tokens : Tokens) : Prop :=
  ∃ front back, tokens = front ++ back ∧ Waits expression.operators expression.brackets front ∧
    expression.focus.Stands (demanded (floorOf expression.brackets) expression.operators) back

/-- What a token makes of an expression that stands for the tokens before it. -/
def Reading.Follows (tokens : Tokens) (token : Located Token) : Reading → Prop
  | .more expression => expression.Stands (tokens ++ [token])
  | .done value => value.Means 1 tokens

namespace Bracket.Stands

variable {opening closing : Span} {front back : Tokens} {value : Expr} {items : List Expr}
  {last : Option Expr} {function container : Operand} {arguments : List Argument}
  {argument : Argument}

/-- The word `else` closes the test of a conditional expression and waits for its alternative. -/
theorem close_conditional {body : Operand} (stands : (Bracket.conditional body).Stands front)
    (derivation : Derives (.expression .orTest) back value) :
    (Operator.otherwise body value).Stands
      (front ++ back ++ [⟨.keyword .elseKw, closing⟩]) := by
  obtain ⟨bodyMeans⟩ := stands
  rw [List.append_assoc _ _ back]
  exact .otherwise bodyMeans derivation

private theorem close_group (stands : (Bracket.group opening).Stands front)
    (derivation : Derives (.expression .test) back value) :
    Operand.Means 10 ⟨opening.through closing, value⟩
      (front ++ back ++ [⟨.symbol .rightParen, closing⟩]) := by
  cases stands
  refine ⟨⟨.atom, by decide, .group derivation⟩, ?_⟩
  rw [extent_closed (List.cons_ne_nil _ [])]
  rfl

private theorem close_emptyTuple (stands : (Bracket.group opening).Stands front) :
    Operand.Means 10 ⟨opening.through closing, .tuple (opening.through closing) []⟩
      (front ++ [⟨.symbol .rightParen, closing⟩]) := by
  cases stands
  exact .of_atom .emptyTuple rfl

theorem close_tuple (stands : (Bracket.tuple opening items).Stands front)
    (derivation : Derives (.optional (.expression .test)) back last) :
    Operand.Means 10
      ⟨opening.through closing, .tuple (opening.through closing) (items ++ last.toList)⟩
      (front ++ back ++ [⟨.symbol .rightParen, closing⟩]) := by
  cases stands with
  | @tuple _ comma before others first more firstDerives othersDerive =>
      have tuple : Derives (.form .atom)
          (⟨.symbol .leftParen, opening⟩ :: before ++ ⟨.symbol .comma, comma⟩ :: others ++ back ++
            [⟨.symbol .rightParen, closing⟩]) (.tuple · (first :: more ++ last.toList)) := by
        rw [List.append_assoc _ _ back]
        exact .tuple firstDerives (.listed othersDerive derivation)
      refine .of_atom tuple ?_
      rw [extent_closed (List.append_ne_nil_of_left_ne_nil (List.cons_ne_nil _ before) _)]
      rfl

theorem close_list (stands : (Bracket.list opening items).Stands front)
    (derivation : Derives (.optional (.expression .test)) back last) :
    Operand.Means 10
      ⟨opening.through closing, .list (opening.through closing) (items ++ last.toList)⟩
      (front ++ back ++ [⟨.symbol .rightBracket, closing⟩]) := by
  cases stands with
  | @list _ before _ itemsDerive =>
      have list : Derives (.form .atom)
          (⟨.symbol .leftBracket, opening⟩ :: before ++ back ++ [⟨.symbol .rightBracket, closing⟩])
          (.list · (items ++ last.toList)) :=
        .list (.listed itemsDerive derivation)
      refine .of_atom list ?_
      rw [extent_closed (List.cons_ne_nil _ before)]
      rfl

private theorem close_call {lastArgument : Option Argument}
    (stands : (Bracket.call function arguments).Stands front)
    (derivation : Derives (.optional .argument) back lastArgument) :
    Operand.Means 10
      ⟨function.extent.through closing,
        .call (function.extent.through closing) function.expr
          (arguments ++ lastArgument.toList)⟩
      (front ++ back ++ [⟨.symbol .rightParen, closing⟩]) := by
  cases stands with
  | @call _ before inside _ left functionMeans argumentsDerive =>
      have call : Derives (.form .primary)
          (before ++ ⟨.symbol .leftParen, left⟩ :: inside ++ back ++
            [⟨.symbol .rightParen, closing⟩])
          (.call · function.expr (arguments ++ lastArgument.toList)) := by
        rw [List.append_assoc _ _ back]
        exact .call (functionMeans.derives .primary (Nat.le_refl 10))
          (.listed argumentsDerive derivation)
      refine .of_form call ?_
      rw [functionMeans.2, List.append_assoc before, extent_closed functionMeans.ne_nil]

private theorem close_subscript (stands : (Bracket.subscript container).Stands front)
    (derivation : Derives (.expression .test) back value) :
    Operand.Means 10
      ⟨container.extent.through closing,
        .subscript (container.extent.through closing) container.expr value⟩
      (front ++ back ++ [⟨.symbol .rightBracket, closing⟩]) := by
  cases stands with
  | @subscript _ before left containerMeans =>
      have subscript : Derives (.form .primary)
          (before ++ [⟨.symbol .leftBracket, left⟩] ++ back ++ [⟨.symbol .rightBracket, closing⟩])
          (.subscript · container.expr value) := by
        rw [List.append_assoc _ _ back]
        exact .subscript (containerMeans.derives .primary (Nat.le_refl 10)) derivation
      refine .of_form subscript ?_
      rw [containerMeans.2, List.append_assoc before, extent_closed containerMeans.ne_nil]

private theorem keyword_argument {name : String}
    (stands : (Bracket.keyword function arguments name).Stands front)
    (derivation : Derives (.expression .test) back value) :
    ∃ before after, front ++ back = before ++ after ∧
      (Bracket.call function arguments).Stands before ∧
      Derives .argument after (.keyword name value) := by
  cases stands with
  | keyword functionMeans argumentsDerive =>
      exact
        ⟨_, _, List.append_assoc _ _ _, .call functionMeans argumentsDerive, .keyword derivation⟩

private theorem name_argument {name : String} {nameSpan : Span}
    (stands : (Bracket.call function arguments).Stands front) :
    (Bracket.keyword function arguments name).Stands
      (front ++ [⟨.name name, nameSpan⟩] ++ [⟨.symbol .assign, closing⟩]) := by
  cases stands with
  | call functionMeans argumentsDerive =>
      rw [List.append_assoc]
      exact .keyword functionMeans argumentsDerive

private theorem next_tuple_of_group (stands : (Bracket.group opening).Stands front)
    (derivation : Derives (.expression .test) back value) :
    (Bracket.tuple opening [value]).Stands (front ++ back ++ [⟨.symbol .comma, closing⟩]) := by
  cases stands
  exact .tuple derivation .nothing

private theorem next_tuple (stands : (Bracket.tuple opening items).Stands front)
    (derivation : Derives (.expression .test) back value) :
    (Bracket.tuple opening (items ++ [value])).Stands
      (front ++ back ++ [⟨.symbol .comma, closing⟩]) := by
  cases stands with
  | tuple firstDerives othersDerive =>
      rw [List.append_assoc, List.append_assoc]
      exact .tuple firstDerives (.another othersDerive (.before derivation))

private theorem next_list (stands : (Bracket.list opening items).Stands front)
    (derivation : Derives (.expression .test) back value) :
    (Bracket.list opening (items ++ [value])).Stands
      (front ++ back ++ [⟨.symbol .comma, closing⟩]) := by
  cases stands with
  | list itemsDerive =>
      rw [List.append_assoc]
      exact .list (.another itemsDerive (.before derivation))

private theorem next_call (stands : (Bracket.call function arguments).Stands front)
    (derivation : Derives .argument back argument) :
    (Bracket.call function (arguments ++ [argument])).Stands
      (front ++ back ++ [⟨.symbol .comma, closing⟩]) := by
  cases stands with
  | call functionMeans argumentsDerive =>
      rw [List.append_assoc, List.append_assoc]
      exact .call functionMeans (.another argumentsDerive (.before derivation))

end Bracket.Stands

/-! ## Steps -/

namespace Waits

variable {operators : List Operator} {brackets : List (Bracket × List Operator)}
  {front back tokens : Tokens} {value : Operand} {token : Located Token}

theorem cons {operator : Operator} (waits : Waits operators brackets front)
    (stands : operator.Stands back)
    (fits : demanded (floorOf brackets) operators ≤ operator.strength) :
    Waits (operator :: operators) brackets (front ++ back) := by
  obtain ⟨opened, pending, rfl, isOpened, isPending⟩ := waits
  exact ⟨opened, pending ++ back, List.append_assoc _ _ _, isOpened, .cons isPending stands fits⟩

private theorem enter {bracket : Bracket} (waits : Waits operators brackets front)
    (stands : bracket.Stands back)
    (fits : ∀ body, bracket = .conditional body → demanded (floorOf brackets) operators ≤ 1) :
    Waits [] ((bracket, operators) :: brackets) (front ++ back) := by
  obtain ⟨opened, pending, rfl, isOpened, isPending⟩ := waits
  exact ⟨_, [], (List.append_nil _).symm, .cons isOpened isPending stands fits, .nil⟩

/-- A closing bracket brings back the operators that it held back. -/
theorem leave {bracket : Bracket} {outside : List Operator}
    (waits : Waits [] ((bracket, outside) :: brackets) tokens) :
    ∃ front back, tokens = front ++ back ∧ Waits outside brackets front ∧ bracket.Stands back ∧
      ∀ body, bracket = .conditional body → demanded (floorOf brackets) outside ≤ 1 := by
  obtain ⟨opened, pending, rfl, isOpened, isPending⟩ := waits
  cases isOpened with
  | cons isOuter isOutside stands fits =>
      cases isPending
      exact ⟨_, _, List.append_nil _, ⟨_, _, rfl, isOuter, isOutside⟩, stands, fits⟩

private theorem eq_nil (waits : Waits [] [] tokens) : tokens = [] := by
  obtain ⟨opened, pending, rfl, isOpened, isPending⟩ := waits
  cases isOpened
  cases isPending
  rfl

private theorem stands (waits : Waits operators brackets tokens) :
    Expression.Stands ⟨operators, brackets, .wanted⟩ tokens :=
  ⟨tokens, [], (List.append_nil _).symm, waits, .wanted⟩

theorem stands_operand (waits : Waits operators brackets front) (means : value.Means 10 back) :
    Expression.Stands ⟨operators, brackets, .operand value⟩ (front ++ back) :=
  ⟨front, back, rfl, waits, .operand means⟩

theorem demanded_le (operators : List Operator) (brackets : List (Bracket × List Operator)) :
    demanded (floorOf brackets) operators ≤ 8 :=
  Rulebook.demanded_le (Nat.le_trans (floorOf_le brackets) (by decide)) operators

/-- Applying all operators in the innermost bracket leaves one operand in it. -/
theorem settle (waits : Waits operators brackets front) (means : value.Means 10 back) :
    ∃ before after, front ++ back = before ++ after ∧ Waits [] brackets before ∧
      (Rulebook.settle operators value).Means (floorOf brackets) after := by
  obtain ⟨opened, pending, rfl, isOpened, isPending⟩ := waits
  have due : value.Means (demanded (floorOf brackets) operators) back :=
    means.mono (Nat.le_trans (demanded_le operators brackets) (by decide))
  exact ⟨opened, pending ++ back, List.append_assoc _ _ _,
    ⟨opened, [], (List.append_nil _).symm, isOpened, .nil⟩, isPending.settle due⟩

/-- Applying the operators down to a strength leaves an operand for an operator of this strength. -/
theorem collapse {strength : Nat} (waits : Waits operators brackets front)
    (means : value.Means 10 back) (low : 2 ≤ strength) (high : strength ≤ 10)
    {rest : List Operator} {left : Operand}
    (collapsed : Rulebook.collapse strength operators value = (rest, left)) :
    ∃ before after, front ++ back = before ++ after ∧ Waits rest brackets before ∧
      left.Means strength after ∧ demanded (floorOf brackets) rest ≤ strength ∧
      ∀ operator ∈ rest.head?, operator.strength < strength := by
  obtain ⟨opened, pending, rfl, isOpened, isPending⟩ := waits
  have ready : demanded (floorOf brackets) operators ≤ 10 :=
    Nat.le_trans (demanded_le operators brackets) (by decide)
  obtain ⟨before, after, isSplit, remaining, leftMeans, loose⟩ :=
    isPending.collapse means ready high
  rw [collapsed] at remaining leftMeans loose
  refine ⟨opened ++ before, after, ?_, ⟨opened, before, rfl, isOpened, remaining⟩, leftMeans,
    demanded_le_of_looser (Nat.le_trans (floorOf_le brackets) low) loose, loose⟩
  rw [List.append_assoc, isSplit, List.append_assoc]

/-- The chain that a relation continues starts behind all looser operators. -/
theorem chain (waits : Waits operators brackets front) (means : value.Means 10 back)
    {rest : List Operator} {left : Operand} {links : List (Relation × Expr)}
    (isChain : Expression.chain operators value = (rest, left, links)) :
    ∃ before middle after, front ++ back = before ++ (middle ++ after) ∧
      Waits rest brackets before ∧ left.Means 6 middle ∧ Derives (.many .link) after links ∧
      demanded (floorOf brackets) rest ≤ 5 := by
  obtain ⟨opened, pending, rfl, isOpened, isPending⟩ := waits
  obtain ⟨before, middle, after, isSplit, remaining, leftMeans, linksDerive, fits⟩ :=
    isPending.chain means (Nat.le_trans (floorOf_le brackets) (by decide)) isChain
  refine ⟨opened ++ before, middle, after, ?_, ⟨opened, before, rfl, isOpened, remaining⟩,
    leftMeans, linksDerive, fits⟩
  rw [List.append_assoc, isSplit, List.append_assoc]

/-- A complete operand takes the place of a bracket and what stood in it. -/
theorem follows_operand (waits : Waits operators brackets front)
    (means : value.Means 10 (back ++ [token])) :
    Reading.Follows (front ++ back) token (.more ⟨operators, brackets, .operand value⟩) := by
  have stands := waits.stands_operand means
  rw [← List.append_assoc] at stands
  exact stands

private theorem follows_enter {bracket : Bracket} (waits : Waits operators brackets front)
    (stands : bracket.Stands (back ++ [token]))
    (fits : ∀ body, bracket = .conditional body → demanded (floorOf brackets) operators ≤ 1) :
    Reading.Follows (front ++ back) token
      (.more ⟨[], (bracket, operators) :: brackets, .wanted⟩) := by
  have inside := (waits.enter stands fits).stands
  rw [← List.append_assoc] at inside
  exact inside

private theorem follows_await {operator : Operator} (waits : Waits operators brackets front)
    (stands : operator.Stands (back ++ [token]))
    (fits : demanded (floorOf brackets) operators ≤ operator.strength) :
    Reading.Follows (front ++ back) token (.more ⟨operator :: operators, brackets, .wanted⟩) := by
  have awaits := (waits.cons stands fits).stands
  rw [← List.append_assoc] at awaits
  exact awaits

end Waits

namespace Token

private theorem means_of_constant {token : Located Token} {expr : Expr}
    (isConstant : token.node.constant? token.span = some expr) :
    Operand.Means 10 ⟨token.span, expr⟩ [token] := by
  obtain ⟨node, span⟩ := token
  cases node with
  | int value =>
      cases isConstant
      exact .of_atom .int rfl
  | float value =>
      cases isConstant
      exact .of_atom .float rfl
  | markedString written =>
      cases isConstant
      exact .of_atom .markedString rfl
  | keyword word =>
      cases word with
      | trueKw =>
          cases isConstant
          exact .of_atom .true rfl
      | falseKw =>
          cases isConstant
          exact .of_atom .false rfl
      | noneKw =>
          cases isConstant
          exact .of_atom .none rfl
      | _ => cases isConstant
  | symbol | string | name | newline | indent | dedent => cases isConstant

private theorem stands_of_sign {token : Located Token} {sign : Sign}
    (isSign : token.node.sign? = some sign) : (Operator.signed token.span sign).Stands [token] := by
  obtain ⟨node, span⟩ := token
  dsimp only at isSign
  unfold sign? at isSign
  split at isSign
  · cases isSign
    exact .negative
  · cases isSign
    exact .positive
  · cases isSign

private theorem derives_relation {token : Located Token} {relation : Relation}
    (spelled : token.node.binary? = some (.relation relation)) :
    Derives .relation [token] relation := by
  obtain ⟨node, span⟩ := token
  dsimp only at spelled
  unfold binary? at spelled
  split at spelled <;> cases spelled <;> constructor

/-- A power binds the operand in hand alone, whatever operators wait before it. -/
theorem stands_of_power {token : Located Token} {left : Operand} {front : Tokens}
    (spelled : token.node.binary? = some (.arithmetic .pow)) (means : left.Means 10 front) :
    (Operator.arithmetic .pow left).Stands (front ++ [token]) := by
  obtain ⟨node, span⟩ := token
  dsimp only at spelled
  unfold binary? at spelled
  split at spelled <;> cases spelled
  exact .power means

private theorem stands_of_collects {token : Located Token} {op : BinaryOp}
    {operator : Operand → Operator}
    {left : Operand} {front : Tokens} (collects : op.Collects operator)
    (spelled : token.node.binary? = some op)
    (means : left.Means (operator left).strength front) :
    (operator left).Stands (front ++ [token]) := by
  obtain ⟨node, span⟩ := token
  dsimp only at spelled
  unfold binary? at spelled
  cases collects with
  | connective op =>
      split at spelled <;> cases spelled
      · exact .or means
      · exact .and means
  | arithmetic notPow =>
      split at spelled <;> cases spelled
      · exact .additive means .plus
      · exact .additive means .minus
      · exact .multiplicative means .star
      · exact .multiplicative means .slash
      · exact .multiplicative means .slashSlash
      · exact .multiplicative means .percent
      · exact absurd rfl notPow

end Token

namespace Expression

variable {operators outside : List Operator} {brackets outer : List (Bracket × List Operator)}
  {bracket : Bracket} {focus : Focus} {front back tokens : Tokens} {value : Operand}
  {token : Located Token} {reading : Reading}

/-- A token that closes a bracket completes what the bracket was opened for. -/
theorem follows_closeAround
    (waits : Waits [] ((bracket, outside) :: outer) front)
    (means : value.Means (floorOf ((bracket, outside) :: outer)) back)
    (closes : closeAround? bracket outside outer value token = some reading) :
    reading.Follows (front ++ back) token := by
  obtain ⟨before, inside, rfl, outerWaits, stands, fits⟩ := waits.leave
  have test : Derives (.expression .test) back value.expr := by
    refine means.derives .test ?_
    unfold floorOf
    split <;> decide
  obtain ⟨node, span⟩ := token
  rw [List.append_assoc]
  unfold closeAround? at closes
  dsimp only at closes
  split at closes
  · cases closes
    have orTest : Derives (.expression .orTest) back value.expr :=
      means.derives .orTest (Nat.le_refl 2)
    exact outerWaits.follows_await (stands.close_conditional orTest) (fits _ rfl)
  · cases closes
    exact outerWaits.follows_operand (stands.close_group test)
  · cases closes
    exact outerWaits.follows_enter (stands.next_tuple_of_group test) (by simp)
  · cases closes
    exact outerWaits.follows_operand (stands.close_tuple (.present test))
  · cases closes
    exact outerWaits.follows_enter (stands.next_tuple test) (by simp)
  · cases closes
    exact outerWaits.follows_operand (stands.close_list (.present test))
  · cases closes
    exact outerWaits.follows_enter (stands.next_list test) (by simp)
  · cases closes
    exact outerWaits.follows_operand (stands.close_call (.present (.positional test)))
  · cases closes
    exact outerWaits.follows_enter (stands.next_call (.positional test)) (by simp)
  · cases closes
    obtain ⟨call, last, isSplit, callStands, argument⟩ := stands.keyword_argument test
    rw [isSplit]
    exact outerWaits.follows_operand (callStands.close_call (.present argument))
  · cases closes
    obtain ⟨call, last, isSplit, callStands, argument⟩ := stands.keyword_argument test
    rw [isSplit]
    exact outerWaits.follows_enter (callStands.next_call argument) (by simp)
  · cases closes
    exact outerWaits.follows_operand (stands.close_subscript test)
  · cases closes

/-- Brackets may be closed behind their opening or a comma, where no expression stands. -/
theorem follows_closeEmpty (waits : Waits operators brackets tokens)
    (closes : closeEmpty? ⟨operators, brackets, focus⟩ token = some reading) :
    reading.Follows tokens token := by
  unfold closeEmpty? at closes
  dsimp only at closes
  split at closes
  · obtain ⟨before, inside, rfl, outerWaits, stands, -⟩ := waits.leave
    obtain ⟨node, span⟩ := token
    dsimp only at closes
    split at closes
    · cases closes
      exact outerWaits.follows_operand stands.close_emptyTuple
    · cases closes
      have means : Operand.Means 10 _ (inside ++ [] ++ [⟨.symbol .rightParen, span⟩]) :=
        stands.close_tuple .absent
      simp only [Option.toList_none, List.append_nil] at means
      exact outerWaits.follows_operand means
    · cases closes
      have means : Operand.Means 10 _ (inside ++ [] ++ [⟨.symbol .rightBracket, span⟩]) :=
        stands.close_list .absent
      simp only [Option.toList_none, List.append_nil] at means
      exact outerWaits.follows_operand means
    · cases closes
      have means : Operand.Means 10 _ (inside ++ [] ++ [⟨.symbol .rightParen, span⟩]) :=
        stands.close_call .absent
      simp only [Option.toList_none, List.append_nil] at means
      exact outerWaits.follows_operand means
    · cases closes
  · cases closes

private theorem demanded_le_of_allowsNot (allowed : allowsNot ⟨operators, brackets, focus⟩ = true) :
    demanded (floorOf brackets) operators ≤ 4 := by
  cases operators with
  | nil => exact Nat.le_trans (floorOf_le brackets) (by decide)
  | cons operator rest =>
      have loose : operator.strength ≤ 4 := of_decide_eq_true allowed
      exact operator.demand_le_of_strength_le.2 loose

/-- A token where an operand is due never completes the expression. -/
theorem follows_feedWanted (waits : Waits operators brackets tokens)
    (fed : feedWanted ⟨operators, brackets, focus⟩ token = some reading) :
    reading.Follows tokens token := by
  have due := Waits.demanded_le operators brackets
  unfold feedWanted at fed
  split at fed
  · rename_i expr isConstant
    cases fed
    exact waits.stands_operand (Token.means_of_constant isConstant)
  · split at fed
    · rename_i sign isSign
      cases fed
      exact (waits.cons (Token.stands_of_sign isSign) due).stands
    · obtain ⟨node, span⟩ := token
      dsimp only at fed
      split at fed
      · cases fed
        exact ⟨_, _, rfl, waits, .name⟩
      · cases fed
        exact ⟨_, _, rfl, waits, .string⟩
      · split at fed
        · rename_i allowed
          cases fed
          exact (waits.cons .not (demanded_le_of_allowsNot allowed)).stands
        · cases fed
      · cases fed
        exact (waits.enter .group (by simp)).stands
      · cases fed
        exact (waits.enter (.list .nothing) (by simp)).stands
      · exact follows_closeEmpty waits fed

/-- The operators that bind as tightly are applied first, and what they yield is the left operand.
-/
theorem follows_of_collects {op : BinaryOp} {operator : Operand → Operator}
    (collects : op.Collects operator) (waits : Waits operators brackets front)
    (means : value.Means 10 back) (spelled : token.node.binary? = some op) :
    (feedBinary ⟨operators, brackets, focus⟩ value op).Follows (front ++ back) token := by
  have bounds : 2 ≤ (operator value).strength ∧ (operator value).strength ≤ 10 := by
    cases collects with
    | connective op =>
        rw [Operator.strength]
        cases op <;> decide
    | @arithmetic op _ =>
        rw [Operator.strength]
        cases op <;> decide
  rcases collapsed : collapse (operator value).strength operators value with ⟨rest, left⟩
  obtain ⟨before, after, isSplit, remaining, leftMeans, fits, -⟩ :=
    waits.collapse means bounds.1 bounds.2 collapsed
  rw [collects.strength_eq value left] at collapsed leftMeans fits
  rw [isSplit, collects.feedBinary_eq collapsed]
  exact remaining.follows_await (Token.stands_of_collects collects spelled leftMeans) fits

/-- A binary operator after an operand. -/
theorem follows_feedBinary {op : BinaryOp} (waits : Waits operators brackets front)
    (means : value.Means 10 back) (spelled : token.node.binary? = some op) :
    (feedBinary ⟨operators, brackets, focus⟩ value op).Follows (front ++ back) token := by
  cases op with
  | arithmetic op =>
      by_cases isPow : op = .pow
      · cases isPow
        have due := Waits.demanded_le operators brackets
        exact waits.follows_await (Token.stands_of_power spelled means)
          (Nat.le_trans due (by decide : 8 ≤ 9))
      · exact follows_of_collects (.arithmetic isPow) waits means spelled
  | connective op => exact follows_of_collects (.connective op) waits means spelled
  | relation relation =>
      rcases isChain : chain operators value with ⟨rest, left, links⟩
      obtain ⟨before, middle, after, isSplit, remaining, leftMeans, linksDerive, fits⟩ :=
        waits.chain means isChain
      simp only [feedBinary, isChain]
      rw [isSplit]
      exact remaining.follows_await
        (.compare leftMeans linksDerive (Token.derives_relation spelled)) fits

/-- A token after a complete operand. The word `if` may only come where no operator but `else` waits
for the conditional expression. -/
theorem follows_feedAfter (waits : Waits operators brackets front) (means : value.Means 10 back)
    (fed : feedAfter ⟨operators, brackets, focus⟩ value token = some reading) :
    reading.Follows (front ++ back) token := by
  unfold feedAfter at fed
  split at fed
  · rename_i op spelled
    cases fed
    exact follows_feedBinary waits means spelled
  · obtain ⟨node, span⟩ := token
    dsimp only at fed
    split at fed
    · cases fed
      exact waits.follows_enter (.call means .nothing) (by simp)
    · cases fed
      exact waits.follows_enter (.subscript means) (by simp)
    · cases fed
      exact ⟨front, _, List.append_assoc _ _ _, waits, .field means⟩
    · rcases isChain : chain operators value with ⟨rest, left, links⟩
      simp only [isChain] at fed
      cases fed
      obtain ⟨before, middle, after, isSplit, remaining, leftMeans, linksDerive, fits⟩ :=
        waits.chain means isChain
      rw [isSplit]
      exact ⟨before, _, List.append_assoc _ _ _, remaining, .notIn leftMeans linksDerive fits⟩
    · rcases isChain : chain operators value with ⟨rest, left, links⟩
      simp only [isChain] at fed
      cases fed
      obtain ⟨before, middle, after, isSplit, remaining, leftMeans, linksDerive, fits⟩ :=
        waits.chain means isChain
      rw [isSplit]
      exact ⟨before, _, List.append_assoc _ _ _, remaining, .identity leftMeans linksDerive fits⟩
    · split at fed
      · cases fed
      · rename_i notConditional
        rcases collapsed : collapse 2 operators value with ⟨rest, body⟩
        simp only [collapsed] at fed
        cases fed
        obtain ⟨before, after, isSplit, remaining, bodyMeans, -, loose⟩ :=
          waits.collapse means (Nat.le_refl 2) (by decide) collapsed
        have floor : floorOf brackets = 1 := by
          unfold floorOf
          split
          · exact absurd rfl (notConditional _ _ _)
          · rfl
        have fits : demanded (floorOf brackets) rest ≤ 1 := by
          cases rest with
          | nil => exact Nat.le_of_eq floor
          | cons operator others =>
              have looser : operator.strength < 2 := loose operator rfl
              exact operator.demand_le_of_strength_le.1 (Nat.le_of_lt_succ looser)
        rw [isSplit]
        exact remaining.follows_enter (.conditional bodyMeans) fun _ _ => fits
    · obtain ⟨before, after, isSplit, inside, settled⟩ := waits.settle means
      rw [isSplit]
      split at fed
      · cases fed
        rw [inside.eq_nil]
        exact settled
      · exact follows_closeAround inside settled fed

/-- Every token that an unfinished expression takes keeps what it stands for, and a token that
completes it shows that the tokens before form an expression. -/
theorem Stands.feed {expression : Expression} (stands : expression.Stands tokens)
    (fed : expression.feed token = some reading) : reading.Follows tokens token := by
  obtain ⟨operators, brackets, focus⟩ := expression
  obtain ⟨front, back, rfl, waits, focused⟩ := stands
  dsimp only at waits focused
  unfold Expression.feed at fed
  dsimp only at fed
  split at fed
  · cases focused
    rw [List.append_nil]
    exact follows_feedWanted waits fed
  · exact follows_feedAfter waits (focused.means rfl) fed
  · split at fed
    · rename_i isAssign
      cases fed
      cases focused
      obtain ⟨before, inside, rfl, outerWaits, called, -⟩ := waits.leave
      obtain ⟨node, span⟩ := token
      cases isAssign
      rw [List.append_assoc]
      exact outerWaits.follows_enter called.name_argument (by simp)
    · exact follows_feedAfter waits (focused.means rfl) fed
  · split at fed
    · rename_i isString
      cases fed
      obtain ⟨node, span⟩ := token
      cases isString
      exact ⟨front, _, List.append_assoc _ _ _, waits, focused.strings_append⟩
    · exact follows_feedAfter waits (focused.means rfl) fed
  · split at fed
    · rename_i isName
      cases fed
      obtain ⟨node, span⟩ := token
      cases isName
      exact waits.follows_operand focused.field_name
    · cases fed
  · split at fed
    · rename_i isIn
      cases fed
      obtain ⟨node, span⟩ := token
      cases isIn
      obtain ⟨compares, fits⟩ := focused.notIn_compare
      exact waits.follows_await compares fits
    · cases fed
  · split at fed
    · rename_i isNot
      cases fed
      obtain ⟨node, span⟩ := token
      cases isNot
      obtain ⟨compares, fits⟩ := focused.identity_notSame
      exact waits.follows_await compares fits
    · obtain ⟨compares, fits⟩ := focused.identity_same
      exact follows_feedWanted (waits.cons compares fits) fed

end Expression

end Rulebook
