import Rulebook.Proofs.Grammar.Derivation

/-!
# Outlines of programs

The outline of a syntax tree keeps the spans of its nodes and which node is below which. The
outlines of a phrase are put together from those of the phrases that it is formed of.
-/

namespace Rulebook

/-- What is left of a syntax tree when only the spans are kept: the span of a node, and the
outlines of the nodes below it. -/
inductive Outline where
  | node (span : Span) (children : List Outline)

namespace Outline

def span : Outline → Span
  | .node span _ => span

def children : Outline → List Outline
  | .node _ children => children

mutual

/-- The outline and all outlines in it. -/
def nodes : Outline → List Outline
  | .node span children => .node span children :: nodesOf children

def nodesOf : List Outline → List Outline
  | [] => []
  | outline :: rest => nodes outline ++ nodesOf rest

end

@[simp]
theorem nodesOf_append (front back : List Outline) :
    nodesOf (front ++ back) = nodesOf front ++ nodesOf back := by
  induction front with
  | nil => rfl
  | cons outline rest inductionHypothesis =>
      rw [List.cons_append, nodesOf, nodesOf, inductionHypothesis, List.append_assoc]

end Outline

mutual

/-- A field of an attribute and the name of an argument are no nodes. -/
def Expr.outline : Expr → Outline
  | .name span _ | .int span _ | .float span _ | .string span _ | .markedString span _
  | .bool span _ | .none span => .node span []
  | .connective span _ left right | .arithmetic span _ left right =>
      .node span [left.outline, right.outline]
  | .not span operand | .signed span _ operand => .node span [operand.outline]
  | .compare span left links => .node span (left.outline :: linkOutlines links)
  | .call span function arguments =>
      .node span (function.outline :: argumentOutlines arguments)
  | .attribute span value _ => .node span [value.outline]
  | .subscript span value index => .node span [value.outline, index.outline]
  | .tuple span items | .list span items => .node span (exprOutlines items)
  | .conditional span body test otherwise =>
      .node span [body.outline, test.outline, otherwise.outline]

def exprOutlines : List Expr → List Outline
  | [] => []
  | expr :: rest => expr.outline :: exprOutlines rest

def linkOutlines : List (Relation × Expr) → List Outline
  | [] => []
  | (_, expr) :: rest => expr.outline :: linkOutlines rest

def Argument.outline : Argument → Outline
  | .positional value | .keyword _ value => value.outline

def argumentOutlines : List Argument → List Outline
  | [] => []
  | argument :: rest => argument.outline :: argumentOutlines rest

end

def nameOutline (name : Located String) : Outline := .node name.span []

def Param.outlines (param : Param) : List Outline :=
  nameOutline param.name :: param.typeHint.toList.map Expr.outline ++
    param.default.toList.map Expr.outline

mutual

def Stmt.outline : Stmt → Outline
  | .function span name params returns body =>
      .node span (nameOutline name :: params.flatMap Param.outlines ++
        returns.toList.map Expr.outline ++ stmtOutlines body)
  | .classDef span name bases body =>
      .node span (nameOutline name :: bases.map Expr.outline ++ stmtOutlines body)
  | .choice span chain => .node span chain.outlines
  | .returning span value => .node span (value.toList.map Expr.outline)
  | .pass span | .breaking span | .continuing span => .node span []
  | .expr span value => .node span [value.outline]
  | .assign span target _ value => .node span [target.outline, value.outline]
  | .forEach span targets iterable body =>
      .node span (targets.map nameOutline ++ [iterable.outline] ++ stmtOutlines body)
  | .whileLoop span condition body => .node span (condition.outline :: stmtOutlines body)

def stmtOutlines : List Stmt → List Outline
  | [] => []
  | stmt :: rest => stmt.outline :: stmtOutlines rest

/-- The conditions of the branches, each before the statements of its body. -/
def Chain.outlines : Chain → List Outline
  | .done => []
  | .otherwise body => stmtOutlines body
  | .branch condition body rest => condition.outline :: stmtOutlines body ++ rest.outlines

end

def Program.outlines (program : Program) : List Outline := stmtOutlines program.items

@[simp]
theorem exprOutlines_eq_map (items : List Expr) : exprOutlines items = items.map Expr.outline := by
  induction items with
  | nil => rfl
  | cons expr rest inductionHypothesis => rw [exprOutlines, inductionHypothesis, List.map_cons]

@[simp]
theorem linkOutlines_eq_map (links : List (Relation × Expr)) :
    linkOutlines links = links.map fun link => link.2.outline := by
  induction links with
  | nil => rfl
  | cons link rest inductionHypothesis => rw [linkOutlines, inductionHypothesis, List.map_cons]

@[simp]
theorem argumentOutlines_eq_map (arguments : List Argument) :
    argumentOutlines arguments = arguments.map Argument.outline := by
  induction arguments with
  | nil => rfl
  | cons argument rest inductionHypothesis =>
      rw [argumentOutlines, inductionHypothesis, List.map_cons]

@[simp]
theorem stmtOutlines_eq_map (body : List Stmt) : stmtOutlines body = body.map Stmt.outline := by
  induction body with
  | nil => rfl
  | cons stmt rest inductionHypothesis => rw [stmtOutlines, inductionHypothesis, List.map_cons]

namespace Grammar

/-- The outlines of what a phrase means. Of a node whose span is still open only the nodes below
it count. -/
def outlines : (phrase : Phrase) → phrase.Value → List Outline
  | .file, program => program.outlines
  | .statement, stmt | .simpleStatement, stmt | .compoundStatement, stmt => [stmt.outline]
  | .smallStatement, node | .function, node | .classDef, node | .choice, node | .whileLoop, node
  | .forEach, node => (node (.point 0)).outline.children
  | .assignment, _ | .decorator, _ | .relation, _ | .additive, _ | .multiplicative, _
  | .string, _ => []
  | .parameter, param => param.outlines
  | .elifClause, (condition, body) => condition.outline :: body.map Stmt.outline
  | .elseClause, body | .suite, body => body.map Stmt.outline
  | .targets, names => names.map nameOutline
  | .name, name => [nameOutline name]
  | .expression _, expr => [expr.outline]
  | .form _, node => (node (.point 0)).outline.children
  | .link, (_, right) => [right.outline]
  | .argument, argument => [argument.outline]
  | .optional phrase, value => value.toList.flatMap (outlines phrase)
  | .many phrase, values | .several phrase, values | .listed phrase, values =>
      values.flatMap (outlines phrase)
  | .after _ phrase, value | .before phrase _, value => outlines phrase value

theorem outlines_function (name : Located String) (params : List Param) (returns : Option Expr)
    (body : List Stmt) :
    outlines .function (Stmt.function · name params returns body) =
      outlines .name name ++ outlines (.listed .parameter) params ++
        outlines (.optional (.after (.symbol .arrow) (.expression .test))) returns ++
        outlines .suite body := by
  simp [outlines, Stmt.outline, Outline.children, ← List.map_eq_flatMap]

theorem outlines_parameter (name : Located String) (typeHint default : Option Expr) :
    outlines .parameter ⟨name, typeHint, default⟩ =
      outlines .name name ++
        outlines (.optional (.after (.symbol .colon) (.expression .test))) typeHint ++
        outlines (.optional (.after (.symbol .assign) (.expression .test))) default := by
  simp [outlines, Param.outlines, ← List.map_eq_flatMap]

/-- Without parentheses a class has no bases, and no nodes for them. -/
theorem outlines_classDef (name : Located String) (bases : Option (List Expr))
    (body : List Stmt) :
    outlines .classDef (Stmt.classDef · name (bases.getD []) body) =
      outlines .name name ++
        outlines (.optional (.after (.symbol .leftParen)
          (.before (.listed (.expression .test)) (.symbol .rightParen)))) bases ++
        outlines .suite body := by
  cases bases <;>
    simp [outlines, Stmt.outline, Outline.children, ← List.map_eq_flatMap]

private theorem outlines_chain (branches : List (Expr × List Stmt)) (last : Option (List Stmt)) :
    (chain branches last).outlines =
      outlines (.many .elifClause) branches ++ outlines (.optional .elseClause) last := by
  induction branches with
  | nil => cases last <;> simp [chain, Chain.outlines, outlines]
  | cons branch rest inductionHypothesis =>
      simp only [chain, Chain.outlines, inductionHypothesis]
      simp [outlines]

theorem outlines_choice (condition : Expr) (body : List Stmt)
    (branches : List (Expr × List Stmt)) (last : Option (List Stmt)) :
    outlines .choice (Stmt.choice · (chain ((condition, body) :: branches) last)) =
      outlines (.expression .test) condition ++ outlines .suite body ++
        outlines (.many .elifClause) branches ++ outlines (.optional .elseClause) last := by
  have inside := outlines_chain branches last
  simp only [outlines, Stmt.outline, Outline.children, chain, Chain.outlines] at inside ⊢
  rw [inside, stmtOutlines_eq_map]
  simp

end Grammar

end Rulebook
