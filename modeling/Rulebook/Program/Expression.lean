import Rulebook.Program.Expr
import Rulebook.Token.Basic

/-!
# Reading an expression token by token

An unfinished expression is held as the operators and brackets that still wait for an operand on
their right. Each token either extends it, completes it without belonging to it, or cannot come.
Operators are applied as late as possible: a token of some binding strength first settles the
pending operators that bind at least as strongly.
-/

namespace Rulebook

/-- An expression in hand. Its extent runs over all its tokens, enclosing parentheses included. -/
structure Operand where
  extent : Span
  expr : Expr

/-- An operator whose right operand is still to come. -/
inductive Operator where
  /-- `body if test else □`. -/
  | otherwise (body : Operand) (test : Expr)
  | connective (op : Connective) (left : Operand)
  | not (opening : Span)
  /-- A comparison chain up to the relation of its next link. -/
  | compare (left : Operand) (links : List (Relation × Expr)) (relation : Relation)
  | arithmetic (op : Arithmetic) (left : Operand)
  | signed (opening : Span) (sign : Sign)

/-- A bracket still to be closed. The test of a conditional expression stands between `if` and
`else` as between brackets. -/
inductive Bracket where
  | conditional (body : Operand)
  | group (opening : Span)
  | tuple (opening : Span) (items : List Expr)
  | list (opening : Span) (items : List Expr)
  | call (function : Operand) (arguments : List Argument)
  | keyword (function : Operand) (arguments : List Argument) (name : String)
  | subscript (value : Operand)

/-- What the last token left at the reading position. -/
inductive Focus where
  /-- An operand must come. -/
  | wanted
  /-- A name on its own, which may yet turn out to name an argument. -/
  | name (text : String) (span : Span)
  /-- Adjacent string literals, of which more may follow. -/
  | strings (content : String) (extent : Span)
  | operand (value : Operand)
  /-- A dot, to be followed by the name of a field. -/
  | field (value : Operand)
  /-- `not` after an operand, to be followed by `in`. -/
  | notIn (left : Operand) (links : List (Relation × Expr))
  /-- `is`, which `not` may follow. -/
  | identity (left : Operand) (links : List (Relation × Expr))

/-- An unfinished expression. -/
structure Expression where
  /-- The operators since the innermost open bracket, latest first. -/
  operators : List Operator := []
  /-- The open brackets, innermost first, each with the operators that wait outside it. -/
  brackets : List (Bracket × List Operator) := []
  focus : Focus := .wanted

/-- The effect of a token on an expression: it belongs to it, or it only shows its end. -/
inductive Reading where
  | more (expression : Expression)
  | done (value : Operand)

def Arithmetic.strength : Arithmetic → Nat
  | .add | .sub => 6
  | .mul | .div | .floorDiv | .mod => 7
  | .pow => 9

def Connective.strength : Connective → Nat
  | .or => 2
  | .and => 3

/-- Higher numbers bind more tightly. -/
def Operator.strength : Operator → Nat
  | .otherwise _ _ => 1
  | .connective op _ => op.strength
  | .not _ => 4
  | .compare _ _ _ => 5
  | .arithmetic op _ => op.strength
  | .signed _ _ => 8

/-- The operator applied to its right operand. -/
def Operator.apply (operator : Operator) (right : Operand) : Operand :=
  match operator with
  | .otherwise body test =>
      let span := body.extent.through right.extent
      ⟨span, .conditional span body.expr test right.expr⟩
  | .connective op left =>
      let span := left.extent.through right.extent
      ⟨span, .connective span op left.expr right.expr⟩
  | .not opening =>
      let span := opening.through right.extent
      ⟨span, .not span right.expr⟩
  | .compare left links relation =>
      let span := left.extent.through right.extent
      ⟨span, .compare span left.expr (links ++ [(relation, right.expr)])⟩
  | .arithmetic op left =>
      let span := left.extent.through right.extent
      ⟨span, .arithmetic span op left.expr right.expr⟩
  | .signed opening sign =>
      let span := opening.through right.extent
      ⟨span, .signed span sign right.expr⟩

/-- Applies the pending operators that bind at least as tightly as `strength`. -/
def collapse (strength : Nat) : List Operator → Operand → List Operator × Operand
  | [], value => ([], value)
  | operator :: rest, value =>
      if strength ≤ operator.strength then collapse strength rest (operator.apply value)
      else (operator :: rest, value)

/-- Applies all pending operators. -/
def settle (operators : List Operator) (value : Operand) : Operand :=
  operators.foldl (fun right operator => operator.apply right) value

/-- An operator between two operands that is written as one token. -/
inductive BinaryOp where
  | arithmetic (op : Arithmetic)
  | connective (op : Connective)
  | relation (relation : Relation)
deriving DecidableEq, Repr

namespace Token

def binary? : Token → Option BinaryOp
  | .keyword .orKw => some (.connective .or)
  | .keyword .andKw => some (.connective .and)
  | .keyword .inKw => some (.relation .isIn)
  | .symbol .less => some (.relation .lt)
  | .symbol .greater => some (.relation .gt)
  | .symbol .lessEqual => some (.relation .le)
  | .symbol .greaterEqual => some (.relation .ge)
  | .symbol .equal => some (.relation .eq)
  | .symbol .notEqual => some (.relation .ne)
  | .symbol .plus => some (.arithmetic .add)
  | .symbol .minus => some (.arithmetic .sub)
  | .symbol .star => some (.arithmetic .mul)
  | .symbol .slash => some (.arithmetic .div)
  | .symbol .slashSlash => some (.arithmetic .floorDiv)
  | .symbol .percent => some (.arithmetic .mod)
  | .symbol .starStar => some (.arithmetic .pow)
  | _ => none

/-- A token that is an operand by itself and nothing more. -/
def constant? (span : Span) : Token → Option Expr
  | .int value => some (.int span value)
  | .float value => some (.float span value)
  | .markedString written => some (.markedString span written)
  | .keyword .trueKw => some (.bool span true)
  | .keyword .falseKw => some (.bool span false)
  | .keyword .noneKw => some (.none span)
  | _ => none

def sign? : Token → Option Sign
  | .symbol .minus => some .negative
  | .symbol .plus => some .positive
  | _ => none

end Token

/-! ## Steps -/

namespace Expression

/-- Goes on with an operator pending. -/
def await (expression : Expression) (operator : Operator) : Reading :=
  .more { expression with operators := operator :: expression.operators, focus := .wanted }

/-- Goes on inside a bracket, outside of which the given operators wait. -/
def enter (expression : Expression) (bracket : Bracket) (outside : List Operator) : Reading :=
  .more ⟨[], (bracket, outside) :: expression.brackets, .wanted⟩

def focusOn (expression : Expression) (focus : Focus) : Reading :=
  .more { expression with focus }

/-- `not` may start an operand only where nothing binds tighter than it. -/
def allowsNot (expression : Expression) : Bool :=
  expression.operators.head?.all fun operator => operator.strength ≤ 4

/-- Closes a bracket in which nothing follows the opening or the last comma. -/
def closeEmpty? (expression : Expression) (token : Located Token) : Option Reading :=
  match expression.operators, expression.brackets with
  | [], (bracket, outside) :: outer =>
      let closed (opening : Span) (node : Span → Expr) : Option Reading :=
        let span := opening.through token.span
        some (.more ⟨outside, outer, .operand ⟨span, node span⟩⟩)
      match bracket, token.node with
      | .group opening, .symbol .rightParen => closed opening (.tuple · [])
      | .tuple opening items, .symbol .rightParen => closed opening (.tuple · items)
      | .list opening items, .symbol .rightBracket => closed opening (.list · items)
      | .call function arguments, .symbol .rightParen =>
          closed function.extent (.call · function.expr arguments)
      | _, _ => none
  | _, _ => none

/-- A token where an operand must come. -/
def feedWanted (expression : Expression) (token : Located Token) : Option Reading :=
  match token.node.constant? token.span with
  | some expr => some (expression.focusOn (.operand ⟨token.span, expr⟩))
  | none =>
      match token.node.sign? with
      | some sign => some (expression.await (.signed token.span sign))
      | none =>
          match token.node with
          | .name text => some (expression.focusOn (.name text token.span))
          | .string content => some (expression.focusOn (.strings content token.span))
          | .keyword .notKw =>
              if expression.allowsNot then some (expression.await (.not token.span)) else none
          | .symbol .leftParen =>
              some (expression.enter (.group token.span) expression.operators)
          | .symbol .leftBracket =>
              some (expression.enter (.list token.span []) expression.operators)
          | _ => expression.closeEmpty? token

/-- Closes a bracket around a value, or goes on to its next item. -/
def closeAround? (bracket : Bracket) (outside : List Operator)
    (outer : List (Bracket × List Operator)) (value : Operand) (token : Located Token) :
    Option Reading :=
  let closed (opening : Span) (node : Span → Expr) : Option Reading :=
    let span := opening.through token.span
    some (.more ⟨outside, outer, .operand ⟨span, node span⟩⟩)
  let another (bracket : Bracket) : Option Reading :=
    some (.more ⟨[], (bracket, outside) :: outer, .wanted⟩)
  match bracket, token.node with
  | .conditional body, .keyword .elseKw =>
      some (.more ⟨.otherwise body value.expr :: outside, outer, .wanted⟩)
  | .group opening, .symbol .rightParen => closed opening fun _ => value.expr
  | .group opening, .symbol .comma => another (.tuple opening [value.expr])
  | .tuple opening items, .symbol .rightParen =>
      closed opening (.tuple · (items ++ [value.expr]))
  | .tuple opening items, .symbol .comma => another (.tuple opening (items ++ [value.expr]))
  | .list opening items, .symbol .rightBracket =>
      closed opening (.list · (items ++ [value.expr]))
  | .list opening items, .symbol .comma => another (.list opening (items ++ [value.expr]))
  | .call function arguments, .symbol .rightParen =>
      closed function.extent
        (.call · function.expr (arguments ++ [.positional value.expr]))
  | .call function arguments, .symbol .comma =>
      another (.call function (arguments ++ [.positional value.expr]))
  | .keyword function arguments name, .symbol .rightParen =>
      closed function.extent
        (.call · function.expr (arguments ++ [.keyword name value.expr]))
  | .keyword function arguments name, .symbol .comma =>
      another (.call function (arguments ++ [.keyword name value.expr]))
  | .subscript container, .symbol .rightBracket =>
      closed container.extent (.subscript · container.expr value.expr)
  | _, _ => none

/-- The chain that a relation after `value` continues or starts: what stays pending, the left end
of the chain and its links so far. -/
def chain (operators : List Operator) (value : Operand) :
    List Operator × Operand × List (Relation × Expr) :=
  match collapse 6 operators value with
  | (.compare left links relation :: rest, last) =>
      (rest, left, links ++ [(relation, last.expr)])
  | (rest, left) => (rest, left, [])

/-- A binary operator after an operand. -/
def feedBinary (expression : Expression) (value : Operand) : BinaryOp → Reading
  | .arithmetic .pow => expression.await (.arithmetic .pow value)
  | .arithmetic op =>
      let (operators, left) := collapse op.strength expression.operators value
      { expression with operators }.await (.arithmetic op left)
  | .connective op =>
      let (operators, left) := collapse op.strength expression.operators value
      { expression with operators }.await (.connective op left)
  | .relation relation =>
      let (operators, left, links) := chain expression.operators value
      { expression with operators }.await (.compare left links relation)

/-- A token after an operand. -/
def feedAfter (expression : Expression) (value : Operand) (token : Located Token) :
    Option Reading :=
  match token.node.binary? with
  | some op => some (expression.feedBinary value op)
  | none =>
      match token.node with
      | .symbol .leftParen => some (expression.enter (.call value []) expression.operators)
      | .symbol .leftBracket => some (expression.enter (.subscript value) expression.operators)
      | .symbol .dot => some (expression.focusOn (.field value))
      | .keyword .notKw =>
          let (operators, left, links) := chain expression.operators value
          some ({ expression with operators }.focusOn (.notIn left links))
      | .keyword .isKw =>
          let (operators, left, links) := chain expression.operators value
          some ({ expression with operators }.focusOn (.identity left links))
      | .keyword .ifKw =>
          match expression.brackets with
          | (.conditional _, _) :: _ => none
          | _ =>
              let (operators, body) := collapse 2 expression.operators value
              some (expression.enter (.conditional body) operators)
      | _ =>
          let settled := settle expression.operators value
          match expression.brackets with
          | [] => some (.done settled)
          | (bracket, outside) :: outer => closeAround? bracket outside outer settled token

/-- One token. -/
def feed (expression : Expression) (token : Located Token) : Option Reading :=
  match expression.focus with
  | .wanted => expression.feedWanted token
  | .operand value => expression.feedAfter value token
  | .name text span =>
      match expression.operators, expression.brackets, token.node with
      | [], (.call function arguments, outside) :: outer, .symbol .assign =>
          some (.more ⟨[], (.keyword function arguments text, outside) :: outer, .wanted⟩)
      | _, _, _ => expression.feedAfter ⟨span, .name span text⟩ token
  | .strings content extent =>
      match token.node with
      | .string further =>
          some (expression.focusOn (.strings (content ++ further) (extent.through token.span)))
      | _ => expression.feedAfter ⟨extent, .string extent content⟩ token
  | .field value =>
      match token.node with
      | .name text =>
          let span := value.extent.through token.span
          some (expression.focusOn (.operand ⟨span, .attribute span value.expr text⟩))
      | _ => none
  | .notIn left links =>
      match token.node with
      | .keyword .inKw => some (expression.await (.compare left links .notIn))
      | _ => none
  | .identity left links =>
      match token.node with
      | .keyword .notKw => some (expression.await (.compare left links .notSame))
      | _ =>
          { expression with
            operators := .compare left links .same :: expression.operators }.feedWanted token

end Expression

end Rulebook
