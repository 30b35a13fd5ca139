import Rulebook.Proofs.Grammar.OpenStatement

/-!
# Every token keeps what the state stands for

Whatever the reader is in the middle of, a token that it takes leads to a state that stands for one
token more. There is a lemma for each thing that an expression can be wanted for and for each mode
of the reader. So the statements that a whole run collects are what the grammar gives for its
tokens.
-/

namespace Rulebook

open Grammar

namespace Frame

variable {parser : Parser} {front middle back : Tokens} {owner : Owner} {body : List Stmt}
  {token : Located Token} {next : Parser} {place : Place} {site : Site}

private theorem goOn {mode : Mode} (frame : Frame parser.items parser.blocks front)
    (stands : mode.Stands (back ++ [token])) :
    (parser.goOn mode).Stands (front ++ back ++ [token]) := by
  rw [List.append_assoc]
  exact ⟨front, _, rfl, frame, stands⟩

private theorem startExpression (frame : Frame parser.items parser.blocks front)
    (stands : site.Stands back) (started : parser.startExpression site token = some next) :
    next.Stands (front ++ back ++ [token]) := by
  rw [Parser.startExpression] at started
  split at started
  · rename_i expression fed
    cases started
    have follows : expression.Stands ([] ++ [token]) := Expression.Stands.nil.feed fed
    exact frame.goOn (.expression stands follows)
  · cases started

private theorem startSimple (frame : Frame parser.items parser.blocks front)
    (stands : place.Stands back)
    (started : parser.startSimple place token = some next) :
    next.Stands (front ++ back ++ [token]) := by
  obtain ⟨node, span⟩ := token
  rw [Parser.startSimple] at started
  dsimp only at started
  split at started
  · cases started
    exact frame.goOn (.returned stands)
  · cases started
    exact frame.goOn (.lineEnd stands .pass)
  · cases started
    exact frame.goOn (.lineEnd stands .breaking)
  · cases started
    exact frame.goOn (.lineEnd stands .continuing)
  · exact frame.startExpression (.statement stands) started

/-- A dedent ends the innermost block, which is not empty. -/
theorem endBlock {items : List Stmt} {outer : List Block} {mode : Mode} {span : Span}
    (frame : Frame items (⟨owner, body⟩ :: outer) front) (nonempty : body ≠ []) :
    (Parser.closeSuite ⟨items, outer, mode⟩ owner body span.stop).Stands
      (front ++ [⟨.dedent, span⟩]) := by
  cases frame with
  | @block _ _ _ before head inner colon lineEnd indent outside owned statements =>
      have suite : Derives .suite
          (⟨.newline, lineEnd⟩ :: ⟨.indent, indent⟩ :: inner ++ [⟨.dedent, span⟩]) body :=
        .block (statements.several_of_many nonempty)
      have isStop := stop_extent_append (⟨.newline, lineEnd⟩ :: ⟨.indent, indent⟩ :: inner)
        (List.cons_ne_nil ⟨.dedent, span⟩ [])
      rw [extent_single] at isStop
      have closed : (Parser.closeSuite ⟨items, outer, mode⟩ owner body _).Stands
          (before ++ (head ++ ⟨.symbol .colon, colon⟩ :: _)) :=
        closeSuite outside owned suite
      rw [isStop] at closed
      simpa only [List.append_assoc, List.cons_append, List.nil_append] using closed

/-- The first token of a statement is kept, whichever statement it starts. -/
theorem startStatement (frame : Frame parser.items parser.blocks front)
    (started : parser.startStatement token = some next) : next.Stands (front ++ [token]) := by
  obtain ⟨node, span⟩ := token
  rw [Parser.startStatement] at started
  dsimp only at started
  split at started
  · cases started
    exact ⟨front, _, rfl, frame, .functionName .nothing⟩
  · cases started
    exact ⟨front, _, rfl, frame, .className .nothing⟩
  · cases started
    exact ⟨front, _, rfl, frame, .begins (.condition .first)⟩
  · cases started
    exact ⟨front, _, rfl, frame, .begins .loop⟩
  · cases started
    exact ⟨front, _, rfl, frame, .firstTarget⟩
  · cases started
    exact ⟨front, _, rfl, frame, .begins (.decorator .nothing)⟩
  · split at started
    · rename_i owner first rest outer isBlocks
      cases started
      rw [isBlocks] at frame
      exact frame.endBlock (List.cons_ne_nil first rest)
    · cases started
  · have stands := frame.startSimple .line started
    rw [List.append_nil] at stands
    exact stands

private theorem endParam {header : Header} {param : Param}
    (frame : Frame parser.items parser.blocks front)
    (opens : header.Opens middle) (parameter : Derives .parameter back param)
    (ended : parser.endParam header param token.node = some next) :
    next.Stands (front ++ (middle ++ back) ++ [token]) := by
  obtain ⟨node, span⟩ := token
  unfold Parser.endParam at ended
  dsimp only at ended
  split at ended
  · cases ended
    exact frame.goOn (.parameter (opens.next parameter))
  · cases ended
    exact frame.goOn (.signature (opens.close (.present parameter)))
  · cases ended

section EndExpression

variable {value : Operand} {test : Tokens}

private theorem endExpression_statement (frame : Frame parser.items parser.blocks front)
    (placed : place.Stands middle) (means : value.Means 1 test)
    (ended : parser.endExpression (.statement place) value token = some next) :
    next.Stands (front ++ (middle ++ test) ++ [token]) := by
  obtain ⟨node, span⟩ := token
  rw [Parser.endExpression] at ended
  dsimp only at ended
  split at ended
  · rename_i op isAssignment
    cases ended
    refine frame.goOn (.begins ?_)
    rw [List.append_assoc]
    exact .assigned placed means (Parser.derives_assignment isAssignment)
  · split at ended
    · rename_i isNewline
      cases isNewline
      cases ended
      rw [means.2]
      exact frame.endLine placed (.expr (means.derives .test (Nat.le_refl 1)))
    · cases ended

private theorem endExpression_assigned {mark : Tokens} {target : Operand} {op : Assignment}
    (frame : Frame parser.items parser.blocks front) (placed : place.Stands middle)
    (targetMeans : target.Means 1 back) (assignment : Derives .assignment mark op)
    (means : value.Means 1 test)
    (ended : parser.endExpression (.assigned place target op) value token = some next) :
    next.Stands (front ++ (middle ++ (back ++ mark) ++ test) ++ [token]) := by
  obtain ⟨node, span⟩ := token
  obtain ⟨rfl, ⟨⟩⟩ := Option.ite_none_right_eq_some.mp ended
  have isTarget : Derives (.expression .test) back _ := targetMeans.derives .test (Nat.le_refl 1)
  rw [targetMeans.between mark means, List.append_assoc middle]
  exact frame.endLine placed (.assign isTarget assignment (means.derives .test (Nat.le_refl 1)))

private theorem endExpression_returned {opening : Span}
    (frame : Frame parser.items parser.blocks front)
    (placed : place.Stands middle) (means : value.Means 1 test)
    (ended : parser.endExpression (.returned place opening) value token = some next) :
    next.Stands (front ++ (middle ++ [⟨.keyword .returnKw, opening⟩] ++ test) ++ [token]) := by
  obtain ⟨node, span⟩ := token
  obtain ⟨rfl, ⟨⟩⟩ := Option.ite_none_right_eq_some.mp ended
  have isExtent : opening.through value.extent =
      extent (⟨.keyword .returnKw, opening⟩ :: test) := by
    rw [extent_cons means.ne_nil, means.2]
  rw [isExtent, List.append_assoc middle]
  exact frame.endLine placed (.returning (.present (means.derives .test (Nat.le_refl 1))))

private theorem endExpression_decorator {marks : List Unit} {opening : Span}
    (frame : Frame parser.items parser.blocks front)
    (marked : Derives (.many .decorator) middle marks)
    (isTest : Derives (.expression .test) test value.expr)
    (ended : parser.endExpression .decorator value token = some next) :
    next.Stands (front ++ (middle ++ [⟨.symbol .at, opening⟩] ++ test) ++ [token]) := by
  obtain ⟨node, span⟩ := token
  obtain ⟨rfl, ⟨⟩⟩ := Option.ite_none_right_eq_some.mp ended
  have several : Derives (.several .decorator)
      (middle ++ (⟨.symbol .at, opening⟩ :: test ++ [⟨.newline, span⟩])) (marks ++ [()]) :=
    .several marked (.decorator isTest)
  refine frame.goOn ?_
  rw [List.append_assoc, List.append_assoc]
  exact .decorated several

private theorem endExpression_typeHint {header : Header} {name : Located String} {mark : Span}
    (frame : Frame parser.items parser.blocks front) (opens : header.Opens middle)
    (named : Derives .name back name) (isTest : Derives (.expression .test) test value.expr)
    (ended : parser.endExpression (.typeHint header name) value token = some next) :
    next.Stands (front ++ (middle ++ (back ++ [⟨.symbol .colon, mark⟩]) ++ test) ++ [token]) := by
  obtain ⟨node, span⟩ := token
  have hinted : Derives (.optional (.after (.symbol .colon) (.expression .test)))
      (⟨.symbol .colon, mark⟩ :: test) (some value.expr) := .present (.after isTest)
  rw [Parser.endExpression] at ended
  split at ended
  · rename_i isAssign
    cases isAssign
    cases ended
    refine frame.goOn (.begins ?_)
    rw [List.append_assoc middle, List.append_assoc middle, List.append_assoc back]
    exact .default opens named hinted
  · have parameter : Derives .parameter (back ++ (⟨.symbol .colon, mark⟩ :: test) ++ [])
        ⟨name, some value.expr, none⟩ := .parameter named hinted .absent
    rw [List.append_nil] at parameter
    rw [List.append_assoc middle, List.append_assoc back]
    exact frame.endParam opens parameter ended

private theorem endExpression_default {header : Header} {name : Located String}
    {typeHint : Option Expr}
    {hint : Tokens} {mark : Span} (frame : Frame parser.items parser.blocks front)
    (opens : header.Opens middle) (named : Derives .name back name)
    (hinted : Derives (.optional (.after (.symbol .colon) (.expression .test))) hint typeHint)
    (isTest : Derives (.expression .test) test value.expr)
    (ended : parser.endExpression (.default header name typeHint) value token = some next) :
    next.Stands
      (front ++ (middle ++ (back ++ hint ++ [⟨.symbol .assign, mark⟩]) ++ test) ++ [token]) := by
  have parameter : Derives .parameter (back ++ hint ++ ⟨.symbol .assign, mark⟩ :: test)
      ⟨name, typeHint, some value.expr⟩ :=
    .parameter named hinted (.present (.after isTest))
  rw [List.append_assoc middle, List.append_assoc (back ++ hint)]
  exact frame.endParam opens parameter ended

private theorem endExpression_base {opening : Span} {name : Located String} {bases : List Expr}
    (frame : Frame parser.items parser.blocks front) (opens : BasesOpen opening name bases middle)
    (isTest : Derives (.expression .test) test value.expr)
    (ended : parser.endExpression (.base opening name bases) value token = some next) :
    next.Stands (front ++ (middle ++ test) ++ [token]) := by
  obtain ⟨node, span⟩ := token
  rw [Parser.endExpression] at ended
  dsimp only at ended
  split at ended
  · cases ended
    exact frame.goOn (.base (opens.next isTest))
  · cases ended
    exact frame.goOn (.colon (opens.close (.present isTest)))
  · cases ended

/-- The token after an expression completes what the expression was wanted for. -/
theorem endExpression (frame : Frame parser.items parser.blocks front)
    (stands : site.Stands middle) (means : value.Means 1 test)
    (ended : parser.endExpression site value token = some next) :
    next.Stands (front ++ (middle ++ test) ++ [token]) := by
  have isTest : Derives (.expression .test) test value.expr := means.derives .test (Nat.le_refl 1)
  cases stands with
  | statement placed => exact frame.endExpression_statement placed means ended
  | assigned placed targetMeans assignment =>
      exact frame.endExpression_assigned placed targetMeans assignment means ended
  | returned placed => exact frame.endExpression_returned placed means ended
  | decorator marked => exact frame.endExpression_decorator marked isTest ended
  | typeHint opens named => exact frame.endExpression_typeHint opens named isTest ended
  | default opens named hinted => exact frame.endExpression_default opens named hinted isTest ended
  | base opens => exact frame.endExpression_base opens isTest ended
  | condition branching =>
      obtain ⟨node, span⟩ := token
      obtain ⟨rfl, ⟨⟩⟩ := Option.ite_none_right_eq_some.mp ended
      exact frame.goOn (.suite (.branch branching isTest))
  | loop =>
      obtain ⟨node, span⟩ := token
      obtain ⟨rfl, ⟨⟩⟩ := Option.ite_none_right_eq_some.mp ended
      exact frame.goOn (.suite (.whileLoop isTest))
  | iterable targetsDerive =>
      obtain ⟨node, span⟩ := token
      obtain ⟨rfl, ⟨⟩⟩ := Option.ite_none_right_eq_some.mp ended
      refine frame.goOn (.suite ?_)
      rw [List.append_assoc]
      exact .forEach targetsDerive isTest
  | returns closes =>
      obtain ⟨node, span⟩ := token
      obtain ⟨rfl, ⟨⟩⟩ := Option.ite_none_right_eq_some.mp ended
      refine frame.goOn (.suite ?_)
      rw [List.append_assoc]
      exact .function closes (.present (.after isTest))

end EndExpression

end Frame

namespace Frame

variable {items : List Stmt} {blocks : List Block} {front before after : Tokens}
  {token : Located Token} {next : Parser}

/-- Inside of an expression, the token is taken by the expression or ends it. -/
theorem step_expression {site : Site} {expression : Expression} (frame : Frame items blocks front)
    (sited : site.Stands before) (expressed : expression.Stands after)
    (stepped : Parser.step ⟨items, blocks, .expression site expression⟩ token = some next) :
    next.Stands (front ++ (before ++ after) ++ [token]) := by
  unfold Parser.step at stepped
  dsimp only at stepped
  split at stepped
  · rename_i continued fed
    cases stepped
    have follows : continued.Stands (after ++ [token]) := expressed.feed fed
    refine frame.goOn ?_
    rw [List.append_assoc]
    exact .expression sited follows
  · rename_i value fed
    have means : value.Means 1 after := expressed.feed fed
    exact frame.endExpression sited means stepped
  · cases stepped

section Lines

variable {place : Place} {owner : Owner} {opening colon lineEnd : Span}

private theorem step_lineEnd {node : Span → Stmt} (frame : Frame items blocks front)
    (placed : place.Stands before) (small : Derives .smallStatement after node)
    (stepped : Parser.step ⟨items, blocks, .lineEnd place (node (extent after))⟩ token =
      some next) :
    next.Stands (front ++ (before ++ after) ++ [token]) := by
  obtain ⟨node, span⟩ := token
  obtain ⟨rfl, ⟨⟩⟩ := Option.ite_none_right_eq_some.mp stepped
  exact frame.endLine placed small

private theorem step_returned (frame : Frame items blocks front) (placed : place.Stands before)
    (stepped : Parser.step ⟨items, blocks, .returned place opening⟩ token = some next) :
    next.Stands (front ++ (before ++ [⟨.keyword .returnKw, opening⟩]) ++ [token]) := by
  obtain ⟨node, span⟩ := token
  unfold Parser.step at stepped
  dsimp only at stepped
  split at stepped
  · rename_i isNewline
    cases isNewline
    cases stepped
    exact frame.endLine placed (.returning .absent)
  · exact frame.startExpression (.returned placed) stepped

private theorem step_colon (frame : Frame items blocks front) (owned : owner.Stands before)
    (stepped : Parser.step ⟨items, blocks, .colon owner⟩ token = some next) :
    next.Stands (front ++ before ++ [token]) := by
  obtain ⟨node, span⟩ := token
  obtain ⟨rfl, ⟨⟩⟩ := Option.ite_none_right_eq_some.mp stepped
  exact frame.goOn (.suite owned)

private theorem step_suite (frame : Frame items blocks front) (owned : owner.Stands before)
    (stepped : Parser.step ⟨items, blocks, .suite owner⟩ token = some next) :
    next.Stands (front ++ (before ++ [⟨.symbol .colon, colon⟩]) ++ [token]) := by
  obtain ⟨node, span⟩ := token
  unfold Parser.step at stepped
  dsimp only at stepped
  split at stepped
  · rename_i isNewline
    cases isNewline
    cases stepped
    refine frame.goOn ?_
    rw [List.append_assoc]
    exact .indent owned
  · exact frame.startSimple (.suite owned) stepped

private theorem step_indent (frame : Frame items blocks front) (owned : owner.Stands before)
    (stepped : Parser.step ⟨items, blocks, .indent owner⟩ token = some next) :
    next.Stands
      (front ++ (before ++ [⟨.symbol .colon, colon⟩, ⟨.newline, lineEnd⟩]) ++ [token]) := by
  obtain ⟨node, span⟩ := token
  obtain ⟨rfl, ⟨⟩⟩ := Option.ite_none_right_eq_some.mp stepped
  have opened : Frame items (⟨owner, []⟩ :: blocks)
      (front ++ (before ++
        [⟨.symbol .colon, colon⟩, ⟨.newline, lineEnd⟩, ⟨.indent, span⟩] ++ [])) :=
    .block frame owned .nothing
  refine ⟨_, [], ?_, opened, .statement⟩
  simp only [List.append_assoc, List.cons_append, List.nil_append, List.append_nil]

private theorem step_branchEnd {branches : List (Expr × List Stmt)}
    (frame : Frame items blocks front)
    (branched : Branches opening branches before)
    (stepped : Parser.step ⟨items, blocks, .branchEnd opening branches (extent before).stop⟩ token =
      some next) :
    next.Stands (front ++ before ++ [token]) := by
  obtain ⟨node, span⟩ := token
  unfold Parser.step at stepped
  dsimp only at stepped
  split at stepped
  · cases stepped
    exact frame.goOn (.begins (.condition (.later branched)))
  · cases stepped
    exact frame.goOn (.colon (.otherwise branched))
  · have closed : Frame (Parser.mk items blocks .statement).items
        (Parser.mk items blocks .statement).blocks front := frame
    exact (closed.endChoice branched).startStatement stepped

end Lines

section Definitions

variable {marks : List Unit} {opening : Span} {name : Located String}

private theorem step_decorated (frame : Frame items blocks front)
    (several : Derives (.several .decorator) before marks)
    (stepped : Parser.step ⟨items, blocks, .decorated⟩ token = some next) :
    next.Stands (front ++ before ++ [token]) := by
  have many := several.many_of_several
  obtain ⟨node, span⟩ := token
  unfold Parser.step at stepped
  dsimp only at stepped
  split at stepped
  · cases stepped
    exact frame.goOn (.begins (.decorator many))
  · cases stepped
    exact frame.goOn (.functionName many)
  · cases stepped
    exact frame.goOn (.className many)
  · cases stepped

private theorem step_functionName (frame : Frame items blocks front)
    (marked : Derives (.many .decorator) before marks)
    (stepped : Parser.step ⟨items, blocks, .functionName opening⟩ token = some next) :
    next.Stands (front ++ (before ++ [⟨.keyword .defKw, opening⟩]) ++ [token]) := by
  obtain ⟨node, span⟩ := token
  unfold Parser.step at stepped
  dsimp only at stepped
  split at stepped
  · cases stepped
    refine frame.goOn ?_
    rw [List.append_assoc]
    exact .functionOpen marked .name
  · cases stepped

private theorem step_functionOpen (frame : Frame items blocks front)
    (marked : Derives (.many .decorator) before marks) (named : Derives .name after name)
    (stepped : Parser.step ⟨items, blocks, .functionOpen opening name⟩ token = some next) :
    next.Stands (front ++ (before ++ ⟨.keyword .defKw, opening⟩ :: after) ++ [token]) := by
  obtain ⟨node, span⟩ := token
  obtain ⟨rfl, ⟨⟩⟩ := Option.ite_none_right_eq_some.mp stepped
  exact frame.goOn (.parameter (.mk marked named .nothing))

private theorem step_parameter {header : Header} (frame : Frame items blocks front)
    (opens : header.Opens before)
    (stepped : Parser.step ⟨items, blocks, .parameter header⟩ token = some next) :
    next.Stands (front ++ before ++ [token]) := by
  obtain ⟨node, span⟩ := token
  unfold Parser.step at stepped
  dsimp only at stepped
  split at stepped
  · cases stepped
    exact frame.goOn (.parameterName opens .name)
  · cases stepped
    have closes : Header.Closes _ (before ++ [] ++ [⟨.symbol .rightParen, span⟩]) :=
      opens.close .absent
    rw [Option.toList_none, List.append_nil, List.append_nil] at closes
    exact frame.goOn (.signature closes)
  · cases stepped

private theorem step_parameterName {header : Header} (frame : Frame items blocks front)
    (opens : header.Opens before) (named : Derives .name after name)
    (stepped : Parser.step ⟨items, blocks, .parameterName header name⟩ token = some next) :
    next.Stands (front ++ (before ++ after) ++ [token]) := by
  obtain ⟨node, span⟩ := token
  unfold Parser.step at stepped
  dsimp only at stepped
  split at stepped
  · cases stepped
    refine frame.goOn (.begins ?_)
    rw [List.append_assoc]
    exact .typeHint opens named
  · cases stepped
    have defaults : Site.Stands (.default header name none)
        (before ++ (after ++ [] ++ [⟨.symbol .assign, span⟩])) :=
      .default opens named .absent
    rw [List.append_nil, ← List.append_assoc] at defaults
    exact frame.goOn (.begins defaults)
  · have parameter : Derives .parameter (after ++ [] ++ []) ⟨name, none, none⟩ :=
      .parameter named .absent .absent
    rw [List.append_nil, List.append_nil] at parameter
    exact frame.endParam opens parameter stepped

private theorem step_signature {header : Header} (frame : Frame items blocks front)
    (closes : header.Closes before)
    (stepped : Parser.step ⟨items, blocks, .signature header⟩ token = some next) :
    next.Stands (front ++ before ++ [token]) := by
  obtain ⟨node, span⟩ := token
  unfold Parser.step at stepped
  dsimp only at stepped
  split at stepped
  · cases stepped
    exact frame.goOn (.begins (.returns closes))
  · cases stepped
    have owned := Owner.Stands.function closes .absent
    rw [List.append_nil] at owned
    exact frame.goOn (.suite owned)
  · cases stepped

private theorem step_className (frame : Frame items blocks front)
    (marked : Derives (.many .decorator) before marks)
    (stepped : Parser.step ⟨items, blocks, .className opening⟩ token = some next) :
    next.Stands (front ++ (before ++ [⟨.keyword .classKw, opening⟩]) ++ [token]) := by
  obtain ⟨node, span⟩ := token
  unfold Parser.step at stepped
  dsimp only at stepped
  split at stepped
  · cases stepped
    refine frame.goOn ?_
    rw [List.append_assoc]
    exact .classOpen marked .name
  · cases stepped

private theorem step_classOpen (frame : Frame items blocks front)
    (marked : Derives (.many .decorator) before marks) (named : Derives .name after name)
    (stepped : Parser.step ⟨items, blocks, .classOpen opening name⟩ token = some next) :
    next.Stands (front ++ (before ++ ⟨.keyword .classKw, opening⟩ :: after) ++ [token]) := by
  obtain ⟨node, span⟩ := token
  unfold Parser.step at stepped
  dsimp only at stepped
  split at stepped
  · cases stepped
    exact frame.goOn (.base (.mk marked named .nothing))
  · cases stepped
    have owned : (Owner.classDef opening name []).Stands
        (before ++ ⟨.keyword .classKw, opening⟩ :: after ++ []) :=
      .classDef marked named .absent
    rw [List.append_nil] at owned
    exact frame.goOn (.suite owned)
  · cases stepped

private theorem step_base {bases : List Expr} (frame : Frame items blocks front)
    (opens : BasesOpen opening name bases before)
    (stepped : Parser.step ⟨items, blocks, .base opening name bases⟩ token = some next) :
    next.Stands (front ++ before ++ [token]) := by
  obtain ⟨node, span⟩ := token
  unfold Parser.step at stepped
  dsimp only at stepped
  split at stepped
  · rename_i isRightParen
    cases isRightParen
    cases stepped
    have owned : Owner.Stands _ (before ++ [] ++ [⟨.symbol .rightParen, span⟩]) :=
      opens.close .absent
    rw [Option.toList_none, List.append_nil, List.append_nil] at owned
    exact frame.goOn (.colon owned)
  · exact frame.startExpression (.base opens) stepped

end Definitions

section Targets

variable {opening comma : Span} {targets : List (Located String)}

private theorem step_firstTarget (frame : Frame items blocks front)
    (stepped : Parser.step ⟨items, blocks, .target opening []⟩ token = some next) :
    next.Stands (front ++ [⟨.keyword .forKw, opening⟩] ++ [token]) := by
  obtain ⟨node, span⟩ := token
  unfold Parser.step at stepped
  dsimp only at stepped
  split at stepped
  · rename_i text
    cases stepped
    have first : Derives .targets ([⟨.name text, span⟩] ++ []) [⟨text, span⟩] :=
      .targets .name .nothing
    exact frame.goOn (.targetEnd first)
  · cases stepped

private theorem step_nextTarget (frame : Frame items blocks front)
    (targetsDerive : Derives .targets before targets)
    (stepped : Parser.step ⟨items, blocks, .target opening targets⟩ token = some next) :
    next.Stands
      (front ++ (⟨.keyword .forKw, opening⟩ :: before ++ [⟨.symbol .comma, comma⟩]) ++
        [token]) := by
  obtain ⟨node, span⟩ := token
  unfold Parser.step at stepped
  dsimp only at stepped
  split at stepped
  · cases stepped
    refine frame.goOn ?_
    rw [List.append_assoc]
    exact .targetEnd targetsDerive.targets_append
  · cases stepped

private theorem step_targetEnd (frame : Frame items blocks front)
    (targetsDerive : Derives .targets before targets)
    (stepped : Parser.step ⟨items, blocks, .targetEnd opening targets⟩ token = some next) :
    next.Stands (front ++ (⟨.keyword .forKw, opening⟩ :: before) ++ [token]) := by
  obtain ⟨node, span⟩ := token
  unfold Parser.step at stepped
  dsimp only at stepped
  split at stepped
  · cases stepped
    exact frame.goOn (.nextTarget targetsDerive)
  · cases stepped
    exact frame.goOn (.begins (.iterable targetsDerive))
  · cases stepped

end Targets

end Frame

namespace Parser.Stands

variable {parser next : Parser} {tokens : Tokens} {token : Located Token}

/-- Every token that the reader takes keeps what its state stands for. -/
theorem step (stands : parser.Stands tokens) (stepped : parser.step token = some next) :
    next.Stands (tokens ++ [token]) := by
  obtain ⟨items, blocks, mode⟩ := parser
  obtain ⟨front, back, rfl, frame, left⟩ := stands
  dsimp only at frame left
  cases left with
  | statement =>
      rw [List.append_nil]
      exact frame.startStatement stepped
  | expression sited expressed => exact frame.step_expression sited expressed stepped
  | lineEnd placed small => exact frame.step_lineEnd placed small stepped
  | returned placed => exact frame.step_returned placed stepped
  | colon owned => exact frame.step_colon owned stepped
  | suite owned => exact frame.step_suite owned stepped
  | indent owned => exact frame.step_indent owned stepped
  | branchEnd branched => exact frame.step_branchEnd branched stepped
  | decorated several => exact frame.step_decorated several stepped
  | functionName marked => exact frame.step_functionName marked stepped
  | functionOpen marked named => exact frame.step_functionOpen marked named stepped
  | parameter opens => exact frame.step_parameter opens stepped
  | parameterName opens named => exact frame.step_parameterName opens named stepped
  | signature closes => exact frame.step_signature closes stepped
  | className marked => exact frame.step_className marked stepped
  | classOpen marked named => exact frame.step_classOpen marked named stepped
  | base opens => exact frame.step_base opens stepped
  | firstTarget => exact frame.step_firstTarget stepped
  | nextTarget targetsDerive => exact frame.step_nextTarget targetsDerive stepped
  | targetEnd targetsDerive => exact frame.step_targetEnd targetsDerive stepped

/-- By induction on the tokens, from one state to the next. -/
theorem run (stands : parser.Stands tokens) {rest : Tokens}
    (leads : Leads Parser.step parser rest next) : next.Stands (tokens ++ rest) := by
  induction rest generalizing parser tokens with
  | nil =>
      cases leads
      rw [List.append_nil]
      exact stands
  | cons token rest inductionHypothesis =>
      obtain ⟨middle, stepped, later⟩ := leads.of_cons
      rw [List.append_cons]
      exact inductionHypothesis (stands.step stepped) later

/-- At the end the state stands for a file. -/
theorem finish {program : Program} (stands : parser.Stands tokens)
    (finished : parser.finish? = some program) : Derives .file tokens program := by
  obtain ⟨items, blocks, mode⟩ := parser
  obtain ⟨front, back, rfl, frame, left⟩ := stands
  unfold Parser.finish? at finished
  dsimp only at finished frame left
  split at finished
  · cases finished
    cases left
    obtain ⟨statements⟩ := frame
    rw [List.append_nil]
    exact .file statements
  · cases finished
    cases left with
    | branchEnd branched =>
        have whole : Frame (Parser.mk items [] .statement).items
            (Parser.mk items [] .statement).blocks front := frame
        obtain ⟨statements⟩ := whole.endChoice branched
        exact .file statements
  · cases finished

end Parser.Stands

/-- What the reader accepts is derivable, with the program that it reads. -/
theorem derives_of_leads {tokens : Tokens} {last : Parser} {program : Program}
    (leads : Leads Parser.step {} tokens last) (finished : last.finish? = some program) :
    Derives .file tokens program := by
  have start : Parser.Stands {} [] := ⟨[], [], rfl, .file .nothing, .statement⟩
  exact (start.run leads).finish finished

end Rulebook
