import Rulebook.Proofs.Grammar.Acceptance

/-!
# Where reading fails

Every state of the reader can be completed: operands can be supplied, brackets closed, suites
given and blocks ended. So the tokens read before a failure always begin some program, and as each
token leads to one state, the token at which reading fails continues none of them.
-/

namespace Rulebook

open Grammar

/-- The grammar derives the tokens. -/
def Grammar.Accepts (tokens : Tokens) : Prop :=
  ∃ program, Derives .file tokens program

/-- A token for which only its kind matters. -/
def Token.anywhere (token : Token) : Located Token := ⟨token, .point 0⟩

/-- The token that closes the bracket. -/
def Bracket.closing : Bracket → Token
  | .conditional _ => .keyword .elseKw
  | .list _ _ | .subscript _ => .symbol .rightBracket
  | .group _ | .tuple _ _ | .call _ _ | .keyword _ _ _ => .symbol .rightParen

namespace Expression

private theorem exists_value (operators : List Operator) (brackets : List (Bracket × List Operator))
    (focus : Focus) :
    ∃ tokens pending next value,
      Leads advance ⟨operators, brackets, focus⟩ tokens ⟨pending, brackets, next⟩ ∧
        next.value? = some value := by
  cases focus with
  | wanted =>
      exact ⟨[(Token.name "x").anywhere], _, _, _, .single rfl, rfl⟩
  | name text span => exact ⟨[], _, _, _, .nil _, rfl⟩
  | strings content extent => exact ⟨[], _, _, _, .nil _, rfl⟩
  | operand value => exact ⟨[], _, _, _, .nil _, rfl⟩
  | field value =>
      exact ⟨[(Token.name "x").anywhere], _, _, _, .single rfl, rfl⟩
  | notIn left links =>
      exact ⟨[(Token.keyword .inKw).anywhere, (Token.name "x").anywhere], _, _, _,
        .cons rfl (.single rfl), rfl⟩
  | identity left links =>
      exact ⟨[(Token.name "x").anywhere], _, _, _, .single rfl, rfl⟩

/-- All brackets can be closed. -/
theorem exists_close (operators : List Operator) (brackets : List (Bracket × List Operator))
    (focus : Focus) :
    ∃ tokens pending next value,
      Leads advance ⟨operators, brackets, focus⟩ tokens ⟨pending, [], next⟩ ∧
        next.value? = some value := by
  induction brackets generalizing operators focus with
  | nil => exact exists_value operators [] focus
  | cons innermost outer inductionHypothesis =>
      obtain ⟨bracket, outside⟩ := innermost
      obtain ⟨tokens, pending, next, value, run, isValue⟩ :=
        exists_value operators ((bracket, outside) :: outer) focus
      have held : Held 0 [] ((bracket, outside) :: outer)
          ⟨pending, (bracket, outside) :: outer, next⟩ (settle pending value) :=
        ⟨pending, next, value, by rw [List.append_nil], isValue, fun _ _ => Nat.zero_le _, rfl⟩
      have ends : bracket.closing.EndsExpression := by cases bracket <;> constructor
      have notAssign : bracket.closing ≠ .symbol .assign := by
        cases bracket <;> simp [Bracket.closing]
      obtain ⟨left, after, closes⟩ : ∃ left after,
          closeAround? bracket outside outer (settle pending value) bracket.closing.anywhere =
            some (.more ⟨left, outer, after⟩) := by
        cases bracket <;> exact ⟨_, _, rfl⟩
      have closed : advance ⟨pending, (bracket, outside) :: outer, next⟩ bracket.closing.anywhere =
          some ⟨left, outer, after⟩ := by
        rw [advance_eq_some_iff]
        rw [held.feed_close ends notAssign]
        exact closes
      obtain ⟨rest, last, final, result, later, isResult⟩ := inductionHypothesis left after
      exact ⟨tokens ++ bracket.closing.anywhere :: rest, last, final, result,
        run.append (.cons closed later), isResult⟩

end Expression

/-! ## Completing programs -/

namespace Parser

/-- Some tokens lead from the state to a program. -/
def Completes (parser : Parser) : Prop :=
  ∃ tokens last program, Leads step parser tokens last ∧ last.finish? = some program

private theorem Completes.of_leads {parser next : Parser} {tokens : Tokens}
    (completes : next.Completes)
    (run : Leads step parser tokens next) : parser.Completes := by
  obtain ⟨rest, last, program, later, finished⟩ := completes
  exact ⟨tokens ++ rest, last, program, run.append later, finished⟩

theorem Completes.of_step {parser next : Parser} (token : Token) (completes : next.Completes)
    (stepped : parser.step token.anywhere = some next) : parser.Completes :=
  completes.of_leads (.single stepped)

/-- A statement may start or, after a choice, be completed by starting another one. -/
inductive Rests : Parser → Prop
  | statement {items : List Stmt} {blocks : List Block} : Rests ⟨items, blocks, .statement⟩
  | branchEnd {items : List Stmt} {blocks : List Block} {opening : Span}
      {branches : List (Expr × List Stmt)} {stop : Nat} :
      Rests ⟨items, blocks, .branchEnd opening branches stop⟩

private theorem rests_append (parser : Parser) (stmt : Stmt) :
    (parser.append stmt).Rests ∧ (parser.append stmt).blocks.length = parser.blocks.length := by
  obtain ⟨items, blocks, mode⟩ := parser
  cases blocks <;> exact ⟨.statement, rfl⟩

theorem rests_closeSuite (parser : Parser) (owner : Owner) (body : List Stmt) (stop : Nat) :
    (parser.closeSuite owner body stop).Rests ∧
      (parser.closeSuite owner body stop).blocks.length = parser.blocks.length := by
  cases owner with
  | branch opening branches condition => exact ⟨.branchEnd, rfl⟩
  | function | classDef | otherwise | whileLoop | forEach => exact rests_append parser _

private theorem Rests.step_pass {parser : Parser} (rests : parser.Rests) :
    ∃ settled : Parser, settled.blocks.length = parser.blocks.length ∧
      parser.step (Token.keyword .passKw).anywhere =
        some (settled.goOn (.lineEnd .line (.pass (.point 0)))) := by
  cases rests with
  | statement => exact ⟨_, rfl, rfl⟩
  | branchEnd => exact ⟨_, (rests_append _ _).2, rfl⟩

/-- A statement `pass` and a dedent end the innermost block, which then is not empty. -/
theorem Rests.leads_dedent {parser : Parser} (rests : parser.Rests) (nested : parser.blocks ≠ []) :
    ∃ tokens next, Leads step parser tokens next ∧ next.Rests ∧
      next.blocks.length + 1 = parser.blocks.length := by
  obtain ⟨⟨items, blocks, mode⟩, sameLength, passed⟩ := rests.step_pass
  cases blocks with
  | nil => exact absurd (List.length_eq_zero_iff.mp sameLength.symm) nested
  | cons block outer =>
      obtain ⟨owner, inner⟩ := block
      obtain ⟨first, others, isCons⟩ : ∃ first others,
          inner ++ [Stmt.pass (.point 0)] = first :: others :=
        List.exists_cons_of_ne_nil (by simp)
      have ended : step ⟨items, ⟨owner, inner⟩ :: outer, .lineEnd .line (.pass (.point 0))⟩
          Token.newline.anywhere = some ⟨items, ⟨owner, first :: others⟩ :: outer, .statement⟩ := by
        rw [← isCons]
        rfl
      have closed : step ⟨items, ⟨owner, first :: others⟩ :: outer, .statement⟩
          Token.dedent.anywhere =
            some (closeSuite ⟨items, outer, .statement⟩ owner (first :: others) 0) := rfl
      obtain ⟨restsAfter, outerLength⟩ :=
        rests_closeSuite ⟨items, outer, .statement⟩ owner (first :: others) 0
      refine ⟨_, _, .cons passed (.cons ended (.single closed)), restsAfter, ?_⟩
      rw [outerLength, ← sameLength]
      rfl

/-- All blocks can be ended one after the other. -/
theorem Rests.completes {parser : Parser} (rests : parser.Rests) : parser.Completes := by
  induction depth : parser.blocks.length generalizing parser with
  | zero =>
      have noBlocks : parser.blocks = [] := List.length_eq_zero_iff.mp depth
      cases rests with
      | statement =>
          cases noBlocks
          exact ⟨[], _, _, .nil _, rfl⟩
      | branchEnd =>
          cases noBlocks
          exact ⟨[], _, _, .nil _, rfl⟩
  | succ outer inductionHypothesis =>
      have nested : parser.blocks ≠ [] := by
        intro noBlocks
        rw [noBlocks] at depth
        cases depth
      obtain ⟨tokens, next, run, restsAfter, shorter⟩ := rests.leads_dedent nested
      have depthAfter : next.blocks.length = outer := by omega
      exact (inductionHypothesis restsAfter depthAfter).of_leads run

theorem completes_endLine (parser : Parser) (place : Place) (stmt : Stmt) (lineEnd : Span) :
    (parser.endLine place stmt lineEnd).Completes := by
  cases place with
  | line => exact (rests_append parser stmt).1.completes
  | suite owner => exact (rests_closeSuite parser owner [stmt] lineEnd.stop).1.completes

theorem completes_suite (parser : Parser) (owner : Owner) :
    (parser.goOn (.suite owner)).Completes := by
  have line : (parser.goOn (.lineEnd (.suite owner) (.pass (.point 0)))).Completes :=
    .of_step .newline (completes_endLine _ _ _ _) rfl
  exact .of_step (.keyword .passKw) line rfl

theorem completes_colon (parser : Parser) (owner : Owner) :
    (parser.goOn (.colon owner)).Completes :=
  .of_step (.symbol .colon) (completes_suite parser owner) rfl

theorem completes_signature (parser : Parser) (header : Header) :
    (parser.goOn (.signature header)).Completes :=
  .of_step (.symbol .colon) (completes_suite parser (.function header none)) rfl

theorem completes_functionOpen (parser : Parser) (opening : Span) (name : Located String) :
    (parser.goOn (.functionOpen opening name)).Completes := by
  have parameters : (parser.goOn (.parameter ⟨opening, name, []⟩)).Completes :=
    .of_step (.symbol .rightParen) (completes_signature parser ⟨opening, name, []⟩) rfl
  exact .of_step (.symbol .leftParen) parameters rfl

theorem completes_functionName (parser : Parser) (opening : Span) :
    (parser.goOn (.functionName opening)).Completes :=
  .of_step (.name "x") (completes_functionOpen parser opening ⟨"x", .point 0⟩) rfl

theorem completes_decorated (parser : Parser) : (parser.goOn .decorated).Completes :=
  .of_step (.keyword .defKw) (completes_functionName parser (.point 0)) rfl

end Parser

/-- A token that ends an expression at the site. -/
def Site.closing : Site → Token
  | .statement _ | .assigned _ _ _ | .returned _ _ | .decorator => .newline
  | .condition _ _ | .loop _ | .iterable _ _ | .returns _ => .symbol .colon
  | .typeHint _ _ | .default _ _ _ | .base _ _ _ => .symbol .rightParen

namespace Parser

private theorem exists_ended (parser : Parser) (site : Site) (value : Operand) :
    ∃ next, parser.endExpression site value site.closing.anywhere = some next ∧
      next.Completes := by
  cases site with
  | statement | assigned | returned => exact ⟨_, rfl, completes_endLine _ _ _ _⟩
  | decorator => exact ⟨_, rfl, completes_decorated parser⟩
  | condition | loop | iterable | returns => exact ⟨_, rfl, completes_suite parser _⟩
  | typeHint | default => exact ⟨_, rfl, completes_signature parser _⟩
  | base => exact ⟨_, rfl, completes_colon parser _⟩

/-- Close all brackets and end the expression. -/
theorem completes_expression (parser : Parser) (site : Site) (expression : Expression) :
    (parser.goOn (.expression site expression)).Completes := by
  obtain ⟨operators, brackets, focus⟩ := expression
  obtain ⟨tokens, pending, next, value, run, isValue⟩ :=
    Expression.exists_close operators brackets focus
  have held : Held 0 [] [] ⟨pending, [], next⟩ (settle pending value) :=
    ⟨pending, next, value, by rw [List.append_nil], isValue, fun _ _ => Nat.zero_le _, rfl⟩
  have ends : site.closing.EndsExpression := by cases site <;> constructor
  have fed : Expression.feed ⟨pending, [], next⟩ site.closing.anywhere =
      some (.done (settle pending value)) := held.feed_done ends
  obtain ⟨after, ended, completes⟩ := exists_ended
    (parser.goOn (.expression site ⟨pending, [], next⟩)) site (settle pending value)
  have stepped : step (parser.goOn (.expression site ⟨pending, [], next⟩))
      site.closing.anywhere = some after := by
    rw [step, goOn]
    simp only [fed]
    exact ended
  exact (Completes.of_step site.closing completes stepped).of_leads (leads_expression run)

private theorem completes_classOpen (parser : Parser) (opening : Span) (name : Located String) :
    (parser.goOn (.classOpen opening name)).Completes :=
  .of_step (.symbol .colon) (completes_suite parser (.classDef opening name [])) rfl

private theorem completes_targetEnd (parser : Parser) (opening : Span)
    (targets : List (Located String)) :
    (parser.goOn (.targetEnd opening targets)).Completes :=
  .of_step (.keyword .inKw) (completes_expression parser (.iterable opening targets) {}) rfl

/-- What is missing in each mode can be supplied. -/
theorem completes_goOn (parser : Parser) (mode : Mode) : (parser.goOn mode).Completes := by
  cases mode with
  | statement => exact Rests.statement.completes
  | expression site expression => exact completes_expression parser site expression
  | lineEnd place stmt => exact .of_step .newline (completes_endLine _ _ _ _) rfl
  | returned place opening => exact .of_step .newline (completes_endLine _ _ _ _) rfl
  | colon owner => exact completes_colon parser owner
  | suite owner => exact completes_suite parser owner
  | indent owner => exact .of_step .indent Rests.statement.completes rfl
  | branchEnd opening branches stop => exact Rests.branchEnd.completes
  | decorated => exact completes_decorated parser
  | functionName opening => exact completes_functionName parser opening
  | functionOpen opening name => exact completes_functionOpen parser opening name
  | parameter header => exact .of_step (.symbol .rightParen) (completes_signature parser _) rfl
  | parameterName header name =>
      exact .of_step (.symbol .rightParen) (completes_signature parser _) rfl
  | signature header => exact completes_signature parser header
  | className opening =>
      exact .of_step (.name "x") (completes_classOpen parser opening ⟨"x", .point 0⟩) rfl
  | classOpen opening name => exact completes_classOpen parser opening name
  | base opening name bases => exact .of_step (.symbol .rightParen) (completes_colon parser _) rfl
  | target opening targets => exact .of_step (.name "x") (completes_targetEnd parser opening _) rfl
  | targetEnd opening targets => exact completes_targetEnd parser opening targets

/-- Every state of the reader can be completed to that of a program. -/
theorem completes (parser : Parser) : parser.Completes :=
  completes_goOn parser parser.mode

/-- A failure comes from the first token that is not taken, or from the end of the tokens. -/
theorem run_eq_error {length stop : Nat} {parser : Parser} {tokens : Tokens}
    {fault : Located SourceFault} (failed : parser.run length stop tokens = .error fault) :
    (∃ before token after last, tokens = before ++ token :: after ∧
      Leads step parser before last ∧ last.step token = none ∧
      fault = ⟨.unexpectedToken token.node last.expected, token.span⟩) ∨
    ∃ last, Leads step parser tokens last ∧ last.finish? = none ∧
      fault = ⟨.unexpectedEnd last.expected,
        (Span.point ((tokens.getLast?.map (·.span.stop)).getD stop)).merge (.point length)⟩ := by
  induction tokens generalizing parser stop with
  | nil =>
      rw [run] at failed
      split at failed
      · cases failed
      · rename_i unfinished
        cases failed
        exact .inr ⟨parser, .nil parser, unfinished, rfl⟩
  | cons token rest inductionHypothesis =>
      rw [run] at failed
      split at failed
      · rename_i next taken
        rcases inductionHypothesis failed with
          ⟨before, offending, after, last, rfl, run, refused, isFault⟩ |
            ⟨last, run, unfinished, isFault⟩
        · exact .inl
            ⟨token :: before, offending, after, last, rfl, .cons taken run, refused, isFault⟩
        · refine .inr ⟨last, .cons taken run, unfinished, ?_⟩
          rw [isFault, List.getLast?_cons]
          cases rest.getLast? <;> rfl
      · rename_i refused
        cases failed
        exact .inl ⟨[], token, rest, parser, rfl, .nil parser, refused, rfl⟩

end Parser

private theorem Grammar.accepts_of_leads {tokens : Tokens} {parser : Parser}
    (run : Leads Parser.step {} tokens parser) : ∃ rest, Accepts (tokens ++ rest) := by
  obtain ⟨rest, last, program, later, finished⟩ := parser.completes
  exact ⟨rest, program, derives_iff_leads.mpr ⟨last, run.append later, finished⟩⟩

/-- A token that is not taken ends all hope of a program. -/
theorem Grammar.not_accepts_of_step {before rest : Tokens} {token : Located Token} {last : Parser}
    (run : Leads Parser.step {} before last) (refused : last.step token = none) :
    ¬ Accepts (before ++ token :: rest) := by
  rintro ⟨program, derivation⟩
  obtain ⟨final, whole, -⟩ := derives_iff_leads.mp derivation
  obtain ⟨middle, first, second⟩ := whole.of_append
  obtain ⟨next, taken, -⟩ := second.of_cons
  have same : middle = last := Option.some.inj (first.symm.trans run)
  rw [same, refused] at taken
  cases taken

/-- Reading fails at the first token with which the tokens before it begin no program, or at the
end of tokens that begin a program and are none. -/
theorem Program.ofTokens_fault_first (length : Nat) (tokens : Tokens) (fault : Located SourceFault)
    (failed : Program.ofTokens length tokens = .error fault) :
    (∃ before token after expected, tokens = before ++ token :: after ∧
      fault = ⟨.unexpectedToken token.node expected, token.span⟩ ∧
      (∃ rest, Accepts (before ++ rest)) ∧ ¬ ∃ rest, Accepts (before ++ token :: rest)) ∨
    ∃ expected,
      fault = ⟨.unexpectedEnd expected,
        (Span.point (extent tokens).stop).merge (.point length)⟩ ∧
      (∃ rest, Accepts (tokens ++ rest)) ∧ ¬ Accepts tokens := by
  rcases Parser.run_eq_error failed with
    ⟨before, token, after, last, isSplit, run, refused, isFault⟩ | ⟨last, run, unfinished, isFault⟩
  · refine .inl ⟨before, token, after, _, isSplit, isFault, accepts_of_leads run, ?_⟩
    rintro ⟨rest, accepted⟩
    exact not_accepts_of_step run refused accepted
  · refine .inr ⟨_, isFault, accepts_of_leads run, ?_⟩
    rintro ⟨program, derivation⟩
    obtain ⟨final, whole, finished⟩ := derives_iff_leads.mp derivation
    have same : final = last := Option.some.inj (whole.symm.trans run)
    rw [same, unfinished] at finished
    cases finished

/-- After `x not` only `in` can come, so a line end there is the first token that fits no
program. -/
theorem Program.ofTokens_fault_first_negation :
    let before : Tokens := [⟨.name "x", ⟨0, 1⟩⟩, ⟨.keyword .notKw, ⟨2, 5⟩⟩]
    let lineEnd : Located Token := ⟨.newline, ⟨5, 5⟩⟩
    (∃ rest, Accepts (before ++ rest)) ∧ ¬ ∃ rest, Accepts (before ++ lineEnd :: rest) := by
  intro before lineEnd
  rcases Program.ofTokens_fault_first 5 (before ++ [lineEnd]) _ rfl with
    ⟨front, token, after, expected, isSplit, isFault, viable, refused⟩ | ⟨expected, isFault, -⟩
  · match front, isSplit with
    | [], isSplit =>
        cases isSplit
        cases isFault
    | [_], isSplit =>
        cases isSplit
        cases isFault
    | [_, _], isSplit =>
        cases isSplit
        exact ⟨viable, refused⟩
    | _ :: _ :: _ :: _, isSplit => simp [before] at isSplit
  · cases isFault

end Rulebook
