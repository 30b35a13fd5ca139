import Rulebook.Number.Binary64
import Rulebook.Source.Span

/-!
# Expressions of the source language

Every node carries the span it was read from. A parenthesised expression is the expression inside,
with the span of the inside.
-/

namespace Rulebook

inductive Connective where
  | and
  | or
deriving DecidableEq, Repr

/-- How a link of a comparison chain relates its two sides. -/
inductive Relation where
  | lt | gt | le | ge | eq | ne | isIn | notIn | same | notSame
deriving DecidableEq, Repr

def Relation.text : Relation → String
  | .lt => "<"
  | .gt => ">"
  | .le => "<="
  | .ge => ">="
  | .eq => "=="
  | .ne => "!="
  | .isIn => "in"
  | .notIn => "not in"
  | .same => "is"
  | .notSame => "is not"

inductive Arithmetic where
  | add | sub | mul | div | floorDiv | mod | pow
deriving DecidableEq, Repr

inductive Sign where
  | negative
  | positive
deriving DecidableEq, Repr

mutual

inductive Expr where
  | name (span : Span) (text : String)
  | int (span : Span) (value : Int64)
  | float (span : Span) (value : Number.Binary64)
  /-- A string literal; adjacent literals are one. -/
  | string (span : Span) (content : String)
  | markedString (span : Span) (written : String)
  | bool (span : Span) (value : Bool)
  | none (span : Span)
  | connective (span : Span) (op : Connective) (left right : Expr)
  | not (span : Span) (operand : Expr)
  /-- A comparison chain: `left` and the links that follow it. -/
  | compare (span : Span) (left : Expr) (links : List (Relation × Expr))
  | arithmetic (span : Span) (op : Arithmetic) (left right : Expr)
  | signed (span : Span) (sign : Sign) (operand : Expr)
  | call (span : Span) (function : Expr) (arguments : List Argument)
  | attribute (span : Span) (value : Expr) (field : String)
  | subscript (span : Span) (value index : Expr)
  | tuple (span : Span) (items : List Expr)
  | list (span : Span) (items : List Expr)
  /-- `body if test else otherwise`. -/
  | conditional (span : Span) (body test otherwise : Expr)

inductive Argument where
  | positional (value : Expr)
  | keyword (name : String) (value : Expr)

end

def Expr.span : Expr → Span
  | .name span _ | .int span _ | .float span _ | .string span _ | .markedString span _
  | .bool span _ | .none span | .connective span _ _ _ | .not span _ | .compare span _ _
  | .arithmetic span _ _ _ | .signed span _ _ | .call span _ _ | .attribute span _ _
  | .subscript span _ _ | .tuple span _ | .list span _ | .conditional span _ _ _ => span

end Rulebook
