import Rulebook.Condition.Eval
import Rulebook.Model.Build

/-!
# Running a function

A direct interpreter of function bodies, against which the rules of a function are measured. It
follows the rules of the source language: statements run in order, the conditions of a choice are
tested one after the other, connectives stop at the operand that settles them, and so do the links
of a comparison chain. Names are bound from outside; assignments, loops and all other statements
do nothing.

A condition outside the language of conditions cannot be tested, and a comparison chain with one
such link cannot be tested at all.
-/

namespace Rulebook

def Expr.isName : Expr → Bool
  | .name _ _ => true
  | _ => false

/-- The operator that a relation stands for. Membership is not decided by comparing two values. -/
def Relation.operator? : Relation → Option Comparator
  | .lt => some .lt
  | .le => some .le
  | .gt => some .gt
  | .ge => some .ge
  | .eq | .same => some .eq
  | .ne | .notSame => some .ne
  | .isIn | .notIn => none

/-- Identity is only asked of `None`. -/
def Relation.isIdentity : Relation → Bool
  | .same | .notSame => true
  | _ => false

/-- Whether a link can be decided: it compares a name with a constant, and identity is only asked
of `None`. -/
def linkTestable (left : Expr) (relation : Relation) (right : Expr) : Bool :=
  ((left.isName && right.constant?.isSome) || (left.constant?.isSome && right.isName)) &&
    relation.operator?.isSome && (!relation.isIdentity || left.isNone || right.isNone)

def linksTestable (left : Expr) : List (Relation × Expr) → Bool
  | [] => true
  | (relation, right) :: rest =>
      linkTestable left relation right && linksTestable right rest

section Running

variable (source : String) (env : Env)

/-- The value of a side of a link: what the name is bound to, or the constant. -/
def Expr.sideValue (expr : Expr) : Except EvalError Value :=
  match expr with
  | .name _ text => env.lookup text
  | other =>
      match other.constant? with
      | some value => .ok value
      | Option.none => .error (.unevaluable (other.sourceText source))

/-- Compares the two sides of a link in the order in which they are written. -/
def testLink (left : Expr) (relation : Relation) (right : Expr) : Except EvalError Bool :=
  match relation.operator?, left.sideValue source env, right.sideValue source env with
  | some op, .ok first, .ok second => first.related op second
  | _, .error error, _ => .error error
  | _, _, .error error => .error error
  | none, _, _ => .error (.unevaluable relation.text)

/-- Tests the links from left to right, up to the first that does not hold. -/
def testLinks (left : Expr) : List (Relation × Expr) → Except EvalError Bool
  | [] => .ok true
  | (relation, right) :: rest =>
      match testLink source env left relation right with
      | .ok true => testLinks right rest
      | .ok false => .ok false
      | .error error => .error error

/-- Tests a condition of the source. The right operand of a connective is only looked at if the
left one does not settle it. -/
def Expr.test : Expr → Except EvalError Bool
  | .bool _ value => .ok value
  | .name _ text => (env.lookup text).map Value.truthy
  | .connective _ .and left right =>
      match left.test with
      | .ok true => right.test
      | .ok false => .ok false
      | .error error => .error error
  | .connective _ .or left right =>
      match left.test with
      | .ok true => .ok true
      | .ok false => right.test
      | .error error => .error error
  | .not _ operand => operand.test.map (!·)
  | .compare span left links =>
      if linksTestable left links then testLinks source env left links
      else .error (.unevaluable ((Expr.compare span left links).sourceText source))
  | other => .error (.unevaluable (other.sourceText source))

mutual

/-- Runs a block: it ends with a returned literal, or falls off its end without one. -/
def runBlock : List Stmt → Except EvalError (Option Literal)
  | [] => .ok none
  | stmt :: rest =>
      match runStmt stmt with
      | .ok none => runBlock rest
      | .ok (some result) => .ok (some result)
      | .error error => .error error

def runStmt : Stmt → Except EvalError (Option Literal)
  | .returning _ value => .ok (some (returnedLiteral source value))
  | .choice _ chain => runChain chain
  | _ => .ok none

def runChain : Chain → Except EvalError (Option Literal)
  | .done => .ok none
  | .otherwise body => runBlock body
  | .branch condition body rest =>
      match condition.test source env with
      | .ok true => runBlock body
      | .ok false => runChain rest
      | .error error => .error error

end

/-- Runs the body of a function under bindings of its names. -/
def Function.run (function : Function) : Except EvalError (Option Literal) :=
  runBlock source env function.body

end Running

end Rulebook
