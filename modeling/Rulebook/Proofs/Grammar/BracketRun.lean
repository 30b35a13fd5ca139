import Rulebook.Proofs.Grammar.ExpressionRun

/-!
# Atoms and brackets are read

A bracket sets the operators around it aside until it is closed. What stands inside is read as an
expression of its own, or as a list of them.
-/

namespace Rulebook

open Grammar

section Atoms

variable {tokens : Tokens} {value : Operand} {focus : Focus}

private theorem reads_of_focus
    (run : ∀ operators brackets,
      Leads Expression.advance ⟨operators, brackets, .wanted⟩ tokens ⟨operators, brackets, focus⟩)
    (isValue : focus.value? = some value) (level : Level) : Reads level tokens value := by
  intro operators brackets _
  exact ⟨_, run operators brackets, [], focus, value, rfl, isValue, by simp, rfl⟩

theorem forms_constant {token : Token} {span : Span} {node : Span → Expr}
    (isConstant : token.constant? span = some (node span)) :
    Forms .atom [⟨token, span⟩] node := by
  have run : ∀ operators brackets,
      Leads Expression.advance ⟨operators, brackets, .wanted⟩ [⟨token, span⟩]
        ⟨operators, brackets, .operand ⟨span, node span⟩⟩ := by
    intro operators brackets
    refine .single (Expression.advance_eq_some_iff.mpr ?_)
    unfold Expression.feed Expression.feedWanted
    simp only [isConstant]
    rfl
  exact reads_of_focus run rfl .atom

theorem forms_name {text : String} {span : Span} :
    Forms .atom [⟨.name text, span⟩] (.name · text) := by
  have run : ∀ operators brackets,
      Leads Expression.advance ⟨operators, brackets, .wanted⟩ [⟨.name text, span⟩]
        ⟨operators, brackets, .name text span⟩ := by
    intro operators brackets
    exact .single rfl
  exact reads_of_focus run rfl .atom

/-- The token is a string literal with the content. -/
def IsString (tokens : Tokens) (content : String) : Prop :=
  ∃ span, tokens = [⟨.string content, span⟩]

theorem join_append_singleton (contents : List String) (content : String) :
    String.join (contents ++ [content]) = String.join contents ++ content := by
  rw [String.join, List.foldl_append]
  rfl

private theorem leads_strings {front back : Tokens} {contents : List String} {content : String}
    (sequence : Sequence IsString front contents) (last : IsString back content)
    (operators : List Operator) (brackets : List (Bracket × List Operator)) :
    Leads Expression.advance ⟨operators, brackets, .wanted⟩ (front ++ back)
      ⟨operators, brackets,
        .strings (String.join (contents ++ [content])) (extent (front ++ back))⟩ := by
  induction sequence generalizing back content with
  | nil =>
      obtain ⟨span, rfl⟩ := last
      have isContent : String.join ([] ++ [content]) = content := by
        rw [join_append_singleton]
        exact String.empty_append
      rw [isContent]
      exact .single rfl
  | @snoc earlier previous _ _ _ before inductionHypothesis =>
      obtain ⟨span, rfl⟩ := last
      have nonempty : earlier ++ previous ≠ [] := by
        obtain ⟨_, rfl⟩ := before
        simp
      refine (inductionHypothesis before).append (.single ?_)
      rw [join_append_singleton _ content, extent_append nonempty (List.cons_ne_nil _ _)]
      rfl

theorem forms_strings {front back : Tokens} {contents : List String} {content : String}
    (sequence : Sequence IsString front contents) (last : IsString back content) :
    Forms .atom (front ++ back) (.string · (String.join (contents ++ [content]))) :=
  reads_of_focus (leads_strings sequence last) rfl .atom

end Atoms

namespace Expression

/-- Just inside a bracket, or after a comma in it. -/
def within (bracket : Bracket) (outside : List Operator) (outer : List (Bracket × List Operator)) :
    Expression :=
  ⟨[], (bracket, outside) :: outer, .wanted⟩

/-- After an operand in the given surroundings. -/
def holding (operators : List Operator) (brackets : List (Bracket × List Operator)) (span : Span)
    (expr : Expr) : Expression :=
  ⟨operators, brackets, .operand ⟨span, expr⟩⟩

end Expression

open Expression (advance within holding)

section Brackets

variable {front inside back tokens : Tokens} {expr function container index : Expr}
  {opening closing : Span} {operators : List Operator} {brackets : List (Bracket × List Operator)}

/-- An expression in brackets, up to a token that closes them or goes on to a further item. -/
theorem ReadsExpr.leads_close {bracket : Bracket} {token : Located Token} {next : Expression}
    (reads : ReadsExpr .test tokens expr) (notConditional : ∀ body, bracket ≠ .conditional body)
    (ends : token.node.EndsExpression) (notAssign : token.node ≠ .symbol .assign)
    (closes : Expression.closeAround? bracket operators brackets ⟨extent tokens, expr⟩ token =
      some (.more next)) :
    Leads advance (within bracket operators brackets) (tokens ++ [token]) next := by
  have admits : Level.test.Admits [] ((bracket, operators) :: brackets) := by
    refine ⟨by simp, ?_⟩
    intro _ body others isHead
    cases isHead
    exact notConditional body rfl
  obtain ⟨state, run, held⟩ := reads [] _ admits
  refine run.append (.single ?_)
  rw [Expression.advance_eq_some_iff, held.feed_close ends notAssign, closes]

/-- A node that ends with a bracket is an operand by itself. -/
theorem forms_bracketed {last : Located Token} (node : Span → Expr) (nonempty : tokens ≠ [])
    (run : ∀ operators brackets, Leads advance ⟨operators, brackets, .wanted⟩ (tokens ++ [last])
      (holding operators brackets ((extent tokens).through last.span)
        (node ((extent tokens).through last.span)))) :
    Forms .atom (tokens ++ [last]) node := by
  rw [Forms, extent_append nonempty (List.cons_ne_nil last [])]
  exact reads_of_focus run rfl .atom

theorem reads_group (reads : ReadsExpr .test inside expr) :
    ReadsExpr .atom
      (⟨.symbol .leftParen, opening⟩ :: inside ++ [⟨.symbol .rightParen, closing⟩]) expr := by
  refine forms_bracketed (fun _ => expr) (List.cons_ne_nil _ _) ?_
  intro operators brackets
  exact .cons rfl (reads.leads_close (by simp) .rightParen (by simp) rfl)

theorem forms_emptyTuple :
    Forms .atom [⟨.symbol .leftParen, opening⟩, ⟨.symbol .rightParen, closing⟩]
      (.tuple · []) := by
  rw [← List.singleton_append]
  refine forms_bracketed _ (List.cons_ne_nil _ _) ?_
  intro operators brackets
  exact .cons rfl (.single rfl)

private theorem leads_tuple {items : List Expr} (listed : Listed (ReadsExpr .test) tokens items)
    (collected : List Expr) :
    Leads advance (within (.tuple opening collected) operators brackets)
      (tokens ++ [⟨.symbol .rightParen, closing⟩])
      (holding operators brackets (opening.through closing)
        (.tuple (opening.through closing) (collected ++ items))) := by
  refine listed.leads (fun soFar => within (.tuple opening soFar) operators brackets)
    (fun soFar => holding operators brackets (opening.through closing)
      (.tuple (opening.through closing) soFar)) ?_ ?_ ?_ collected
  · intro soFar stretch value span reads
    exact reads.leads_close (by simp) .comma (by simp) rfl
  · intro soFar stretch value reads
    exact reads.leads_close (by simp) .rightParen (by simp) rfl
  · intro soFar
    rfl

theorem forms_tuple {first : Expr} {others : List Expr} {comma : Span}
    (firstReads : ReadsExpr .test front first)
    (listed : Listed (ReadsExpr .test) back others) :
    Forms .atom
      (⟨.symbol .leftParen, opening⟩ :: front ++ ⟨.symbol .comma, comma⟩ :: back ++
        [⟨.symbol .rightParen, closing⟩])
      (.tuple · (first :: others)) := by
  refine forms_bracketed _ (List.cons_ne_nil _ _) ?_
  intro operators brackets
  have firstRun : Leads advance (within (.group opening) operators brackets)
      (front ++ [⟨.symbol .comma, comma⟩]) (within (.tuple opening [first]) operators brackets) :=
    firstReads.leads_close (by simp) .comma (by simp) rfl
  have split : front ++ ⟨.symbol .comma, comma⟩ :: back ++ [⟨.symbol .rightParen, closing⟩] =
      front ++ [⟨.symbol .comma, comma⟩] ++ (back ++ [⟨.symbol .rightParen, closing⟩]) := by simp
  rw [List.cons_append, List.cons_append, split]
  exact .cons rfl (firstRun.append (leads_tuple listed [first]))

theorem forms_list {items : List Expr} (listed : Listed (ReadsExpr .test) inside items) :
    Forms .atom
      (⟨.symbol .leftBracket, opening⟩ :: inside ++ [⟨.symbol .rightBracket, closing⟩])
      (.list · items) := by
  refine forms_bracketed _ (List.cons_ne_nil _ _) ?_
  intro operators brackets
  refine .cons rfl (listed.leads (fun soFar => within (.list opening soFar) operators brackets)
    (fun soFar => holding operators brackets (opening.through closing)
      (.list (opening.through closing) soFar)) ?_ ?_ ?_ [])
  · intro soFar stretch value span reads
    exact reads.leads_close (by simp) .comma (by simp) rfl
  · intro soFar stretch value reads
    exact reads.leads_close (by simp) .rightBracket (by simp) rfl
  · intro soFar
    rfl

end Brackets

section Trailers

variable {front inside tokens : Tokens} {function container index value : Expr}
  {opening closing : Span}

/-- A bracket after a primary expression makes a longer one of it. -/
theorem forms_trailer {first last : Located Token} (bracket : Bracket) (node : Span → Expr)
    (reads : ReadsExpr .primary front function)
    (enters : ∀ operators brackets focus, focus.value? = some ⟨extent front, function⟩ →
      advance ⟨operators, brackets, focus⟩ first = some (within bracket operators brackets))
    (run : ∀ operators brackets,
      Leads advance (within bracket operators brackets) (inside ++ [last])
        (holding operators brackets ((extent front).through last.span)
          (node ((extent front).through last.span)))) :
    Forms .primary (front ++ first :: inside ++ [last]) node := by
  have isExtent : extent (front ++ first :: inside ++ [last]) =
      (extent front).through last.span := by
    rw [List.append_assoc, extent_append reads.ne_nil (by simp),
      extent_append (List.cons_ne_nil _ _) (List.cons_ne_nil _ _)]
    rfl
  rw [Forms, isExtent]
  intro operators brackets admits
  obtain ⟨_, start, held⟩ := reads operators brackets ⟨admits.1, fun isTest => by cases isTest⟩
  obtain ⟨focus, rfl, isValue⟩ := held.focus_of_primary
  rw [List.append_assoc, List.cons_append]
  exact ⟨_, start.append (.cons (enters operators brackets focus isValue) (run operators brackets)),
    [], _, _, rfl, rfl, by simp, rfl⟩

theorem forms_subscript (reads : ReadsExpr .primary front container)
    (indexReads : ReadsExpr .test inside index) :
    Forms .primary
      (front ++ ⟨.symbol .leftBracket, opening⟩ :: inside ++ [⟨.symbol .rightBracket, closing⟩])
      (.subscript · container index) := by
  refine forms_trailer (.subscript ⟨extent front, container⟩) _ reads ?_ ?_
  · intro operators brackets focus isValue
    rw [Expression.advance_eq_some_iff, Expression.feed_of_value isValue (by simp) (by simp)]
    rfl
  · intro operators brackets
    exact indexReads.leads_close (by simp) .rightBracket (by simp) rfl

/-- The tokens are read as an argument of a call, which a comma or the closing bracket adds to the
others. -/
def ReadsArgument (tokens : Tokens) (argument : Argument) : Prop :=
  ∀ function arguments operators brackets, ∃ state,
    Leads advance (within (.call function arguments) operators brackets) tokens state ∧
      (∀ span, state.advance ⟨.symbol .comma, span⟩ =
        some (within (.call function (arguments ++ [argument])) operators brackets)) ∧
      ∀ span, state.advance ⟨.symbol .rightParen, span⟩ =
        some (holding operators brackets (function.extent.through span)
          (.call (function.extent.through span) function.expr (arguments ++ [argument])))

theorem readsArgument_positional (reads : ReadsExpr .test tokens value) :
    ReadsArgument tokens (.positional value) := by
  intro function arguments operators brackets
  obtain ⟨state, run, held⟩ := reads [] ((.call function arguments, operators) :: brackets)
    ⟨by simp, by simp⟩
  refine ⟨state, run, ?_, ?_⟩
  · intro span
    rw [Expression.advance_eq_some_iff, held.feed_close .comma (by simp)]
    rfl
  · intro span
    rw [Expression.advance_eq_some_iff, held.feed_close .rightParen (by simp)]
    rfl

theorem readsArgument_keyword {name : String} {nameSpan mark : Span}
    (reads : ReadsExpr .test tokens value) :
    ReadsArgument (⟨.name name, nameSpan⟩ :: ⟨.symbol .assign, mark⟩ :: tokens)
      (.keyword name value) := by
  intro function arguments operators brackets
  obtain ⟨state, run, held⟩ := reads [] ((.keyword function arguments name, operators) :: brackets)
    ⟨by simp, by simp⟩
  refine ⟨state, .cons rfl (.cons rfl run), ?_, ?_⟩
  · intro span
    rw [Expression.advance_eq_some_iff, held.feed_close .comma (by simp)]
    rfl
  · intro span
    rw [Expression.advance_eq_some_iff, held.feed_close .rightParen (by simp)]
    rfl

theorem forms_call {arguments : List Argument} (reads : ReadsExpr .primary front function)
    (listed : Listed ReadsArgument inside arguments) :
    Forms .primary
      (front ++ ⟨.symbol .leftParen, opening⟩ :: inside ++ [⟨.symbol .rightParen, closing⟩])
      (.call · function arguments) := by
  refine forms_trailer (.call ⟨extent front, function⟩ []) _ reads ?_ ?_
  · intro operators brackets focus isValue
    rw [Expression.advance_eq_some_iff, Expression.feed_of_value isValue (by simp) (by simp)]
    rfl
  · intro operators brackets
    refine listed.leads
      (fun soFar => within (.call ⟨extent front, function⟩ soFar) operators brackets)
      (fun soFar => holding operators brackets ((extent front).through closing)
        (.call ((extent front).through closing) function soFar)) ?_ ?_ ?_ []
    · intro soFar stretch argument span readsArgument
      obtain ⟨state, run, comma, -⟩ :=
        readsArgument ⟨extent front, function⟩ soFar operators brackets
      exact run.append (.single (comma span))
    · intro soFar stretch argument readsArgument
      obtain ⟨state, run, -, close⟩ :=
        readsArgument ⟨extent front, function⟩ soFar operators brackets
      exact run.append (.single (close closing))
    · intro soFar
      rfl

theorem forms_attribute {field : String} {dot span : Span}
    (reads : ReadsExpr .primary front value) :
    Forms .primary (front ++ [⟨.symbol .dot, dot⟩, ⟨.name field, span⟩])
      (.attribute · value field) := by
  have isExtent : extent (front ++ [⟨.symbol .dot, dot⟩, ⟨.name field, span⟩]) =
      (extent front).through span := extent_append reads.ne_nil (List.cons_ne_nil _ _)
  rw [Forms, isExtent]
  intro operators brackets admits
  obtain ⟨_, start, held⟩ := reads operators brackets ⟨admits.1, fun isTest => by cases isTest⟩
  obtain ⟨focus, rfl, isValue⟩ := held.focus_of_primary
  have dotted : advance ⟨operators, brackets, focus⟩ ⟨.symbol .dot, dot⟩ =
      some ⟨operators, brackets, .field ⟨extent front, value⟩⟩ := by
    rw [Expression.advance_eq_some_iff, Expression.feed_of_value isValue (by simp) (by simp)]
    rfl
  exact ⟨_, start.append (.cons dotted (.single rfl)), [], _, _, rfl, rfl, by simp, rfl⟩

end Trailers

end Rulebook
