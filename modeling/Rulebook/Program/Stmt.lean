import Rulebook.Program.Expr

/-!
# Statements of the source language

A program is a list of statements. Functions are collected from the top level and from the bodies
of classes.
-/

namespace Rulebook

inductive Assignment where
  | set | add | sub | mul | div
deriving DecidableEq, Repr

/-- A parameter of a function, with its type annotation and its default value. -/
structure Param where
  name : Located String
  typeHint : Option Expr
  default : Option Expr

mutual

inductive Stmt where
  | function (span : Span) (name : Located String) (params : List Param)
      (returns : Option Expr) (body : List Stmt)
  | classDef (span : Span) (name : Located String) (bases : List Expr) (body : List Stmt)
  | choice (span : Span) (chain : Chain)
  | returning (span : Span) (value : Option Expr)
  | pass (span : Span)
  | breaking (span : Span)
  | continuing (span : Span)
  | expr (span : Span) (value : Expr)
  | assign (span : Span) (target : Expr) (op : Assignment) (value : Expr)
  | forEach (span : Span) (targets : List (Located String)) (iterable : Expr) (body : List Stmt)
  | whileLoop (span : Span) (condition : Expr) (body : List Stmt)

/-- The branches of a choice, tried in order. -/
inductive Chain where
  | done
  | otherwise (body : List Stmt)
  | branch (condition : Expr) (body : List Stmt) (rest : Chain)

end

namespace Stmt

def span : Stmt → Span
  | .function span _ _ _ _ | .classDef span _ _ _ | .choice span _ | .returning span _
  | .pass span | .breaking span | .continuing span | .expr span _ | .assign span _ _ _
  | .forEach span _ _ _ | .whileLoop span _ _ => span

end Stmt

/-- A function definition, taken out of its program. -/
structure Function where
  span : Span
  name : Located String
  params : List Param
  returns : Option Expr
  body : List Stmt

mutual

/-- The functions defined by a statement itself, or in the body of the class that it defines. -/
def Stmt.functions : Stmt → List Function
  | .function span name params returns body => [⟨span, name, params, returns, body⟩]
  | .classDef _ _ _ body => functionsOf body
  | _ => []

/-- The functions of a block, in source order. -/
def functionsOf : List Stmt → List Function
  | [] => []
  | stmt :: rest => stmt.functions ++ functionsOf rest

end

/-- A source file. -/
structure Program where
  items : List Stmt

def Program.functions (program : Program) : List Function := functionsOf program.items

end Rulebook
