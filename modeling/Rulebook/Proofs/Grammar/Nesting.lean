import Rulebook.Proofs.Grammar.Acceptance
import Rulebook.Proofs.Grammar.Outline
import Rulebook.Proofs.Token.Lossless

/-!
# Spans nest

Every node of a program covers whole characters of the source. The nodes below it lie within it,
one after the other in the order in which they are listed. All of this goes back to the tokens,
which lie on the source in order: a node runs from its first token to its last, and what is below
it was read from tokens in between.
-/

namespace Rulebook

/-- The offset lies between two characters, or at an end. -/
def IsBoundary (source : List Char) (offset : Nat) : Prop :=
  ∃ front back, source = front ++ back ∧ byteLength front = offset

/-- A node covers whole characters of the source, and its children lie in it one after the
other. -/
structure Outline.Settled (source : List Char) (outline : Outline) : Prop where
  ordered : outline.span.start ≤ outline.span.stop
  bounded : outline.span.stop ≤ byteLength source
  boundaries : IsBoundary source outline.span.start ∧ IsBoundary source outline.span.stop
  contains : ∀ child ∈ outline.children,
    outline.span.start ≤ child.span.start ∧ child.span.stop ≤ outline.span.stop
  apart : outline.children.Pairwise fun earlier later => earlier.span.stop ≤ later.span.start

private theorem IsBoundary.le_byteLength {source : List Char} {offset : Nat}
    (boundary : IsBoundary source offset) : offset ≤ byteLength source := by
  obtain ⟨front, back, rfl, rfl⟩ := boundary
  rw [byteLength_append]
  exact Nat.le_add_right _ _

/-- The spans lie one after the other between two offsets, each over whole characters. -/
inductive InOrder (source : List Char) : Nat → List Span → Nat → Prop
  | nil {lower upper : Nat} : lower ≤ upper → InOrder source lower [] upper
  | cons {lower upper : Nat} {span : Span} {rest : List Span} :
      lower ≤ span.start →
      span.start ≤ span.stop →
      IsBoundary source span.start →
      IsBoundary source span.stop →
      InOrder source span.stop rest upper →
      InOrder source lower (span :: rest) upper

namespace InOrder

variable {source : List Char} {lower middle upper : Nat} {span : Span}
  {front back spans : List Span}

theorem le (inOrder : InOrder source lower spans upper) : lower ≤ upper := by
  induction inOrder with
  | nil bound => exact bound
  | cons start width _ _ _ inductionHypothesis => omega

theorem lowered (inOrder : InOrder source middle spans upper) (bound : lower ≤ middle) :
    InOrder source lower spans upper := by
  cases inOrder with
  | nil limit => exact .nil (Nat.le_trans bound limit)
  | cons start width isStart isStop later =>
      exact .cons (Nat.le_trans bound start) width isStart isStop later

private theorem append (frontOrder : InOrder source lower front middle)
    (backOrder : InOrder source middle back upper) :
    InOrder source lower (front ++ back) upper := by
  induction frontOrder with
  | nil bound => exact backOrder.lowered bound
  | cons start width isStart isStop _ inductionHypothesis =>
      exact .cons start width isStart isStop (inductionHypothesis backOrder)

private theorem of_append (inOrder : InOrder source lower (front ++ back) upper) :
    ∃ middle, InOrder source lower front middle ∧ InOrder source middle back upper := by
  induction front generalizing lower with
  | nil => exact ⟨lower, .nil (Nat.le_refl lower), inOrder⟩
  | cons span rest inductionHypothesis =>
      cases inOrder with
      | cons start width isStart isStop later =>
          obtain ⟨middle, restOrder, backOrder⟩ := inductionHypothesis later
          exact ⟨middle, .cons start width isStart isStop restOrder, backOrder⟩

theorem within (inOrder : InOrder source lower spans upper) :
    ∀ span ∈ spans, lower ≤ span.start ∧ span.stop ≤ upper := by
  induction inOrder with
  | nil => simp
  | @cons lower upper span rest start width _ _ later inductionHypothesis =>
      have bound := later.le
      intro tested member
      rcases List.mem_cons.mp member with rfl | inRest
      · exact ⟨start, bound⟩
      · have inner := inductionHypothesis tested inRest
        omega

theorem pairwise (inOrder : InOrder source lower spans upper) :
    spans.Pairwise fun earlier later => earlier.stop ≤ later.start := by
  induction inOrder with
  | nil => exact .nil
  | cons _ _ _ _ later inductionHypothesis =>
      exact .cons (fun tested member => (later.within tested member).1) inductionHypothesis

private theorem of_pairwise (bound : lower ≤ upper)
    (each : ∀ span ∈ spans, lower ≤ span.start ∧ span.start ≤ span.stop ∧ span.stop ≤ upper ∧
      IsBoundary source span.start ∧ IsBoundary source span.stop)
    (apart : spans.Pairwise fun earlier later => earlier.stop ≤ later.start) :
    InOrder source lower spans upper := by
  induction spans generalizing lower with
  | nil => exact .nil bound
  | cons span rest inductionHypothesis =>
      obtain ⟨start, width, stop, isStart, isStop⟩ := each span List.mem_cons_self
      obtain ⟨before, restApart⟩ := List.pairwise_cons.mp apart
      refine .cons start width isStart isStop (inductionHypothesis stop ?_ restApart)
      intro later member
      exact ⟨before later member, (each later (List.mem_cons_of_mem span member)).2⟩

end InOrder

namespace Grammar

variable {source : List Char}

private theorem inOrder_extent {lower upper : Nat} {tokens : Tokens} (nonempty : tokens ≠ [])
    (inOrder : InOrder source lower (tokens.map Located.span) upper) :
    InOrder source lower [extent tokens] upper ∧
      InOrder source (extent tokens).start (tokens.map Located.span) (extent tokens).stop := by
  induction tokens generalizing lower with
  | nil => exact absurd rfl nonempty
  | cons token rest inductionHypothesis =>
      rw [List.map_cons] at inOrder ⊢
      cases inOrder with
      | cons start width isStart isStop later =>
          by_cases single : rest = []
          · subst single
            exact ⟨.cons start width isStart isStop later,
              .cons (Nat.le_refl _) width isStart isStop (.nil (Nat.le_refl _))⟩
          · obtain ⟨around, inside⟩ := inductionHypothesis single later
            rw [extent_cons single]
            cases around with
            | cons following restWidth _ isEnd atEnd =>
                have spread : token.span.start ≤ (extent rest).stop := by omega
                exact ⟨.cons start spread isStart isEnd atEnd,
                  .cons (Nat.le_refl _) width isStart isStop (inside.lowered following)⟩

/-- Wherever the tokens lie in order, so do the outlines, and all their nodes are settled. -/
def Nests (source : List Char) (tokens : Tokens) (outlines : List Outline) : Prop :=
  ∀ lower upper, InOrder source lower (tokens.map Located.span) upper →
    InOrder source lower (outlines.map Outline.span) upper ∧
      ∀ node ∈ Outline.nodesOf outlines, node.Settled source

namespace Nests

variable {tokens front back : Tokens} {outlines earlier later : List Outline}

@[simp]
theorem nothing (tokens : Tokens) : Nests source tokens [] := by
  intro lower upper inOrder
  exact ⟨.nil inOrder.le, by simp [Outline.nodesOf]⟩

private theorem append (frontNests : Nests source front earlier)
    (backNests : Nests source back later) :
    Nests source (front ++ back) (earlier ++ later) := by
  intro lower upper inOrder
  rw [List.map_append] at inOrder ⊢
  obtain ⟨middle, frontOrder, backOrder⟩ := inOrder.of_append
  obtain ⟨earlierOrder, earlierSettled⟩ := frontNests lower middle frontOrder
  obtain ⟨laterOrder, laterSettled⟩ := backNests middle upper backOrder
  rw [Outline.nodesOf_append]
  exact ⟨earlierOrder.append laterOrder,
    List.forall_mem_append.mpr ⟨earlierSettled, laterSettled⟩⟩

private theorem after (token : Located Token) (nests : Nests source tokens outlines) :
    Nests source (token :: tokens) outlines :=
  (nothing [token]).append nests

/-- A token after the others leaves no outline. -/
theorem before (nests : Nests source tokens outlines) (token : Located Token) :
    Nests source (tokens ++ [token]) outlines := by
  have appended := nests.append (nothing [token])
  rw [List.append_nil] at appended
  exact appended

/-- A node runs from the first of its tokens to the last. -/
theorem node (nonempty : tokens ≠ []) (nests : Nests source tokens outlines) :
    Nests source tokens [.node (extent tokens) outlines] := by
  intro lower upper inOrder
  obtain ⟨around, inside⟩ := inOrder_extent nonempty inOrder
  obtain ⟨childrenOrder, childrenSettled⟩ := nests _ _ inside
  refine ⟨around, ?_⟩
  have settled : (Outline.node (extent tokens) outlines).Settled source := by
    cases around with
    | cons _ width isStart isStop _ =>
        refine ⟨width, isStop.le_byteLength, ⟨isStart, isStop⟩, ?_, ?_⟩
        · intro child member
          exact childrenOrder.within child.span (List.mem_map_of_mem member)
        · exact List.pairwise_map.mp childrenOrder.pairwise
  simp only [Outline.nodesOf, Outline.nodes, List.append_nil, List.forall_mem_cons]
  exact ⟨settled, childrenSettled⟩

end Nests

/-! ## Nodes of phrases -/

/-- A phrase that means a node up to its span has tokens, and the span changes nothing below the
node. -/
def Opens : (phrase : Phrase) → Tokens → phrase.Value → Prop
  | .smallStatement, tokens, node | .function, tokens, node | .classDef, tokens, node
  | .choice, tokens, node | .whileLoop, tokens, node | .forEach, tokens, node =>
      tokens ≠ [] ∧ ∀ span, (node span).outline = .node span (node (.point 0)).outline.children
  | .form _, tokens, node =>
      tokens ≠ [] ∧ ∀ span, (node span).outline = .node span (node (.point 0)).outline.children
  | _, _, _ => True

private theorem Derives.opens {phrase : Phrase} {tokens : Tokens} {value : phrase.Value}
    (derivation : Derives phrase tokens value) : Opens phrase tokens value := by
  cases derivation with
  | returning | pass | breaking | continuing | function | classDef | choice | whileLoop | forEach
  | conditional | or | and | not | negative | positive | power | call | subscript | field
  | identifier | int | float | markedString | true | false | none | emptyTuple | tuple | list =>
      exact ⟨by simp, fun _ => rfl⟩
  | expr value => exact ⟨value.expression_ne_nil, fun _ => rfl⟩
  | assign target _ _ =>
      refine ⟨?_, fun _ => rfl⟩
      simp [target.expression_ne_nil]
  | comparison left _ | sum left _ _ | product left _ _ =>
      refine ⟨?_, fun _ => rfl⟩
      simp [left.expression_ne_nil]
  | strings contents =>
      refine ⟨?_, fun _ => rfl⟩
      cases contents with
      | several _ last =>
          cases last
          simp
  | _ => exact trivial

/-- What the grammar derives nests, phrase by phrase. -/
theorem Derives.nests {phrase : Phrase} {tokens : Tokens} {value : phrase.Value}
    (derivation : Derives phrase tokens value) : Nests source tokens (outlines phrase value) := by
  induction derivation with
  | absent | nothing => exact .nothing _
  | present _ nests => simpa [outlines] using nests
  | another _ _ sequence last | several _ _ sequence last | listed _ _ sequence last =>
      simpa [outlines] using sequence.append last
  | after _ nests => exact nests.after _
  | before _ nests => exact nests.before _
  | file _ sequence =>
      simpa [outlines, Program.outlines, List.map_eq_flatMap] using sequence
  | simple _ nests | compound _ nests => exact nests
  | line small nests =>
      obtain ⟨nonempty, opens⟩ := small.opens
      rw [outlines, opens]
      exact (nests.node nonempty).before _
  | returning _ value =>
      simpa [outlines, Stmt.outline, Outline.children, ← List.map_eq_flatMap] using value.after _
  | pass | breaking | continuing => exact .nothing _
  | expr _ nests => exact nests
  | assign _ _ _ target op value => exact (target.append op).append value
  | set | setSum | setDifference | setProduct | setQuotient => exact .nothing _
  | plainFunction definition nests | plainClass definition nests
  | choiceStatement definition nests | whileStatement definition nests
  | forStatement definition nests =>
      obtain ⟨nonempty, opens⟩ := definition.opens
      rw [outlines, opens]
      exact nests.node nonempty
  | decoratedFunction _ definition _ nests | decoratedClass _ definition _ nests =>
      obtain ⟨nonempty, opens⟩ := definition.opens
      rw [outlines, opens]
      exact (Nests.nothing _).append (nests.node nonempty)
  | decorator => exact .nothing _
  | function _ _ _ _ name params returns suite =>
      rw [outlines_function]
      exact (((name.after _).append (params.after _)).append (returns.after _)).append
        (suite.after _)
  | parameter _ _ _ name typeHint default =>
      rw [outlines_parameter]
      exact (name.append typeHint).append default
  | classDef _ _ _ name bases suite =>
      rw [outlines_classDef]
      exact ((name.after _).append bases).append (suite.after _)
  | choice _ _ _ _ condition suite branches otherwise =>
      rw [outlines_choice]
      exact (((condition.after _).append (suite.after _)).append branches).append otherwise
  | elifClause _ _ condition suite => exact (condition.after _).append (suite.after _)
  | elseClause _ suite => exact (suite.after _).after _
  | whileLoop _ _ condition suite =>
      simpa [outlines, Stmt.outline, Outline.children] using
        (condition.after _).append (suite.after _)
  | forEach _ _ _ targets iterable suite =>
      simpa [outlines, Stmt.outline, Outline.children] using
        ((targets.after _).append (iterable.after _)).append (suite.after _)
  | targets _ _ first others =>
      simpa [outlines, ← List.map_eq_flatMap] using first.append others
  | block _ statements =>
      simpa [outlines, ← List.map_eq_flatMap] using ((statements.after _).after _).before _
  | sameLine _ nests => exact nests
  | name => exact (Nests.nothing _).node (List.cons_ne_nil _ _)
  | tighter _ nests => exact nests
  | formed form nests =>
      obtain ⟨nonempty, opens⟩ := form.opens
      rw [outlines, opens]
      exact nests.node nonempty
  | conditional _ _ _ body test otherwise =>
      exact (body.append (test.after _)).append (otherwise.after _)
  | or _ _ left right | and _ _ left right | power _ _ left right =>
      exact left.append (right.after _)
  | not _ nests | negative _ nests | positive _ nests => exact nests.after _
  | comparison _ _ left links =>
      simpa [outlines, Expr.outline, Outline.children, ← List.map_eq_flatMap]
        using left.append links
  | link _ _ relation right => exact relation.append right
  | less | greater | lessEqual | greaterEqual | equal | notEqual | isIn | notIn | same
  | notSame => exact .nothing _
  | sum _ _ _ left op right | product _ _ _ left op right => exact (left.append op).append right
  | plus | minus | star | slash | slashSlash | percent => exact .nothing _
  | call _ _ function arguments =>
      simpa [outlines, Expr.outline, Outline.children, ← List.map_eq_flatMap]
        using (function.append (arguments.after _)).before _
  | subscript _ _ container index => exact (container.append (index.after _)).before _
  | field _ nests => exact nests.append (.nothing _)
  | positional _ nests => exact nests
  | keyword _ nests => exact (nests.after _).after _
  | identifier | int | float | strings | string | markedString | true | false | none
  | emptyTuple => exact .nothing _
  | group _ nests => exact (nests.after _).before _
  | tuple _ _ first others =>
      simpa [outlines, Expr.outline, Outline.children, ← List.map_eq_flatMap]
        using ((first.after _).append (others.after _)).before _
  | list _ items =>
      simpa [outlines, Expr.outline, Outline.children, ← List.map_eq_flatMap]
        using (items.after _).before _

end Grammar

open Grammar

private theorem Lossless.inOrder {source : List Char} {tokens : Tokens}
    (lossless : Lossless source tokens) :
    InOrder source 0 (tokens.map Located.span) (byteLength source) := by
  refine .of_pairwise (Nat.zero_le _) ?_ (List.pairwise_map.mpr lossless.ordered)
  intro span member
  obtain ⟨token, isToken, rfl⟩ := List.mem_map.mp member
  obtain ⟨before, text, after, isSource, isSpan, -⟩ := lossless.occupied token isToken
  obtain ⟨width, bound⟩ := lossless.bounded token isToken
  have isStart : IsBoundary source token.span.start :=
    ⟨before, text ++ after, by rw [isSource, List.append_assoc], by rw [isSpan]⟩
  have isStop : IsBoundary source token.span.stop :=
    ⟨before ++ text, after, isSource, by rw [isSpan]⟩
  exact ⟨Nat.zero_le _, width, bound, isStart, isStop⟩

/-- In a program that was read from a source, every node covers whole characters of the source and
holds the nodes below it one after the other, as the source holds the statements of the program. -/
theorem Program.spans_nest (source : String) (program : Program)
    (parsed : Program.ofSource source = .ok program) :
    (∀ node ∈ Outline.nodesOf program.outlines, node.Settled source.toList) ∧
      program.outlines.Pairwise fun earlier later => earlier.span.stop ≤ later.span.start := by
  obtain ⟨tokens, tokenized, derivation⟩ := Program.ofSource_eq_ok_iff.mp parsed
  have lays : Layout.Lays {} source.toList tokens := Layout.lays_of_tokens tokenized
  have nests : Nests source.toList tokens program.outlines := derivation.nests
  obtain ⟨inOrder, settled⟩ := nests _ _ lays.tiled.lossless.inOrder
  exact ⟨settled, List.pairwise_map.mp inOrder.pairwise⟩

/-- Parentheses lie outside the name that they enclose and inside the connective, a letter has two
bytes, and the choice ends where the next statement starts. -/
theorem Program.spans_nest_grouped :
    let source := "if (x) and f('é'):\n    pass\nv\n"
    let test : Expr :=
      .connective ⟨3, 18⟩ .and (.name ⟨4, 5⟩ "x")
        (.call ⟨11, 18⟩ (.name ⟨11, 12⟩ "f") [.positional (.string ⟨13, 17⟩ "é")])
    let program : Program :=
      ⟨[.choice ⟨0, 29⟩ (.branch test [.pass ⟨24, 28⟩] .done),
        .expr ⟨29, 30⟩ (.name ⟨29, 30⟩ "v")]⟩
    Program.ofSource source = .ok program ∧
      (∀ node ∈ Outline.nodesOf program.outlines, node.Settled source.toList) ∧
      program.outlines.Pairwise fun earlier later => earlier.span.stop ≤ later.span.start := by
  intro source test program
  have tokenized : tokenize source = .ok
      [⟨.keyword .ifKw, ⟨0, 2⟩⟩, ⟨.symbol .leftParen, ⟨3, 4⟩⟩, ⟨.name "x", ⟨4, 5⟩⟩,
        ⟨.symbol .rightParen, ⟨5, 6⟩⟩, ⟨.keyword .andKw, ⟨7, 10⟩⟩, ⟨.name "f", ⟨11, 12⟩⟩,
        ⟨.symbol .leftParen, ⟨12, 13⟩⟩, ⟨.string "é", ⟨13, 17⟩⟩, ⟨.symbol .rightParen, ⟨17, 18⟩⟩,
        ⟨.symbol .colon, ⟨18, 19⟩⟩, ⟨.newline, ⟨19, 20⟩⟩, ⟨.indent, ⟨24, 24⟩⟩,
        ⟨.keyword .passKw, ⟨24, 28⟩⟩, ⟨.newline, ⟨28, 29⟩⟩, ⟨.dedent, ⟨29, 29⟩⟩,
        ⟨.name "v", ⟨29, 30⟩⟩, ⟨.newline, ⟨30, 31⟩⟩] :=
    toOption_eq_some_iff.mp (by decide +kernel)
  have parsed : Program.ofSource source = .ok program := by
    rw [Program.ofSource, tokenized]
    rfl
  exact ⟨parsed, Program.spans_nest source program parsed⟩

end Rulebook
