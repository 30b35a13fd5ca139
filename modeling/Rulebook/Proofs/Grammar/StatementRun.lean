import Rulebook.Proofs.Grammar.BracketRun

/-!
# Every program of the grammar is read

Reading the tokens of a statement adds it to the innermost open block. Only a choice that more
branches may follow is held back until the next token, and then nothing is lost by that. For each
rule that forms a statement there is a lemma: if the parts are read, the whole is.
-/

namespace Rulebook

open Grammar

/-- The tokens that an expression can start with. -/
inductive Token.StartsExpression : Token → Prop
  | name (text : String) : StartsExpression (.name text)
  | int (value : Int64) : StartsExpression (.int value)
  | float (value : Number.Binary64) : StartsExpression (.float value)
  | string (content : String) : StartsExpression (.string content)
  | markedString (written : String) : StartsExpression (.markedString written)
  | trueKw : StartsExpression (.keyword .trueKw)
  | falseKw : StartsExpression (.keyword .falseKw)
  | noneKw : StartsExpression (.keyword .noneKw)
  | notKw : StartsExpression (.keyword .notKw)
  | plus : StartsExpression (.symbol .plus)
  | minus : StartsExpression (.symbol .minus)
  | leftParen : StartsExpression (.symbol .leftParen)
  | leftBracket : StartsExpression (.symbol .leftBracket)

namespace Parser

variable {parser : Parser}

@[simp]
theorem closeSuite_goOn (mode : Mode) (owner : Owner) (body : List Stmt) (stop : Nat) :
    (parser.goOn mode).closeSuite owner body stop = parser.closeSuite owner body stop := by
  cases owner <;> rfl

@[simp]
theorem endLine_goOn (mode : Mode) (place : Place) (stmt : Stmt) (lineEnd : Span) :
    (parser.goOn mode).endLine place stmt lineEnd = parser.endLine place stmt lineEnd := by
  cases place with
  | line => rfl
  | suite owner => exact closeSuite_goOn mode owner [stmt] lineEnd.stop

@[simp]
theorem endExpression_goOn (mode : Mode) (site : Site) (value : Operand) (token : Located Token) :
    (parser.goOn mode).endExpression site value token = parser.endExpression site value token := by
  cases site with
  | statement place =>
      simp only [endExpression, endLine_goOn]
      rfl
  | assigned place | returned place => simp only [endExpression, endLine_goOn]
  | _ => rfl

@[simp]
theorem mode_append (stmt : Stmt) : (parser.append stmt).mode = .statement := by
  unfold append
  split <;> rfl

/-- A token that is taken where an expression is due starts one. -/
theorem startExpression_of_step {site : Site} {token : Located Token} {next : Parser}
    (taken : step (parser.goOn (.expression site {})) token = some next) :
    token.node.StartsExpression ∧ parser.startExpression site token = some next := by
  obtain ⟨node, span⟩ := token
  cases node with
  | name text => exact ⟨.name text, taken⟩
  | int value => exact ⟨.int value, taken⟩
  | float value => exact ⟨.float value, taken⟩
  | string content => exact ⟨.string content, taken⟩
  | markedString written => exact ⟨.markedString written, taken⟩
  | keyword word =>
      cases word with
      | trueKw => exact ⟨.trueKw, taken⟩
      | falseKw => exact ⟨.falseKw, taken⟩
      | noneKw => exact ⟨.noneKw, taken⟩
      | notKw => exact ⟨.notKw, taken⟩
      | _ => cases taken
  | symbol mark =>
      cases mark with
      | plus => exact ⟨.plus, taken⟩
      | minus => exact ⟨.minus, taken⟩
      | leftParen => exact ⟨.leftParen, taken⟩
      | leftBracket => exact ⟨.leftBracket, taken⟩
      | _ => cases taken
  | newline | indent | dedent => cases taken

/-- Where a simple statement may start. -/
def placed (parser : Parser) : Place → Parser
  | .line => parser.goOn .statement
  | .suite owner => parser.goOn (.suite owner)

private theorem resumes_placed (place : Place) :
    Resumes step (parser.placed place) (parser.goOn (.expression (.statement place) {})) := by
  intro token next taken
  obtain ⟨starts, started⟩ := startExpression_of_step taken
  obtain ⟨node, span⟩ := token
  cases place with
  | line => cases starts <;> exact started
  | suite owner => cases starts <;> exact started

private theorem resumes_returned (place : Place) (opening : Span) :
    Resumes step (parser.goOn (.returned place opening))
      (parser.goOn (.expression (.returned place opening) {})) := by
  intro token next taken
  obtain ⟨starts, started⟩ := startExpression_of_step taken
  obtain ⟨node, span⟩ := token
  cases starts <;> exact started

theorem resumes_base (opening : Span) (name : Located String) (bases : List Expr) :
    Resumes step (parser.goOn (.base opening name bases))
      (parser.goOn (.expression (.base opening name bases) {})) := by
  intro token next taken
  obtain ⟨starts, started⟩ := startExpression_of_step taken
  obtain ⟨node, span⟩ := token
  cases starts <;> exact started

/-- An expression in its place is read up to the token that ends it. -/
theorem leads_site {tokens : Tokens} {expr : Expr} (reads : ReadsExpr .test tokens expr)
    (parser : Parser) (site : Site) :
    ∃ last, Leads step (parser.goOn (.expression site {})) tokens last ∧
      ∀ token : Located Token, token.node.EndsExpression →
        last.step token = parser.endExpression site ⟨extent tokens, expr⟩ token := by
  obtain ⟨state, run, held⟩ := reads [] [] ⟨by simp, by simp⟩
  refine ⟨_, leads_expression run, ?_⟩
  intro token ends
  rw [← endExpression_goOn (.expression site state), step, goOn]
  simp only [held.feed_done ends]

end Parser

/-- The tokens lead from the start of a simple statement to its line end. -/
def ReadsSmall (tokens : Tokens) (node : Span → Stmt) : Prop :=
  ∀ (parser : Parser) (place : Place), ∃ last,
    Leads Parser.step (parser.placed place) tokens last ∧
      ∀ span, last.step ⟨.newline, span⟩ =
        some (parser.endLine place (node (extent tokens)) span)

/-- The token is a mark of assignment. -/
def IsAssignment (tokens : Tokens) (op : Assignment) : Prop :=
  ∃ token : Located Token,
    tokens = [token] ∧ token.node.EndsExpression ∧ Parser.assignment? token.node = some op

section Simple

variable {tokens front back : Tokens} {expr target value : Expr} {span : Span}

theorem readsSmall_of_lineEnd {token : Located Token} {node : Span → Stmt}
    (taken : ∀ (parser : Parser) (place : Place), (parser.placed place).step token =
      some (parser.goOn (.lineEnd place (node token.span)))) : ReadsSmall [token] node := by
  intro parser place
  refine ⟨_, .single (taken parser place), ?_⟩
  intro span
  exact congrArg some (Parser.endLine_goOn _ place (node token.span) span)

theorem readsSmall_pass : ReadsSmall [⟨.keyword .passKw, span⟩] .pass :=
  readsSmall_of_lineEnd fun _ place => by cases place <;> rfl

theorem readsSmall_breaking : ReadsSmall [⟨.keyword .breakKw, span⟩] .breaking :=
  readsSmall_of_lineEnd fun _ place => by cases place <;> rfl

theorem readsSmall_continuing : ReadsSmall [⟨.keyword .continueKw, span⟩] .continuing :=
  readsSmall_of_lineEnd fun _ place => by cases place <;> rfl

private theorem step_returnKw (parser : Parser) (place : Place) :
    (parser.placed place).step ⟨.keyword .returnKw, span⟩ =
      some (parser.goOn (.returned place span)) := by
  cases place <;> rfl

theorem readsSmall_returning {value : Option Expr}
    (optional : Optional (ReadsExpr .test) tokens value) :
    ReadsSmall (⟨.keyword .returnKw, span⟩ :: tokens) (.returning · value) := by
  intro parser place
  cases value with
  | none =>
      cases optional
      refine ⟨_, .single (step_returnKw parser place), ?_⟩
      intro lineEnd
      exact congrArg some (Parser.endLine_goOn _ place (.returning span none) lineEnd)
  | some expr =>
      obtain ⟨last, run, ends⟩ := Parser.leads_site optional parser (.returned place span)
      have resumed := (Parser.resumes_returned place span).leads optional.ne_nil run
      refine ⟨last, .cons (step_returnKw parser place) resumed, ?_⟩
      intro lineEnd
      rw [ends _ .newline, extent_cons optional.ne_nil]
      rfl

theorem readsSmall_expr (reads : ReadsExpr .test tokens expr) :
    ReadsSmall tokens (.expr · expr) := by
  intro parser place
  obtain ⟨last, run, ends⟩ := Parser.leads_site reads parser (.statement place)
  refine ⟨last, (Parser.resumes_placed place).leads reads.ne_nil run, ?_⟩
  intro lineEnd
  rw [ends _ .newline]
  rfl

theorem readsSmall_assign {middle : Tokens} {op : Assignment}
    (targetReads : ReadsExpr .test front target) (isAssignment : IsAssignment middle op)
    (valueReads : ReadsExpr .test back value) :
    ReadsSmall (front ++ middle ++ back) (.assign · target op value) := by
  intro parser place
  obtain ⟨token, rfl, tokenEnds, isOp⟩ := isAssignment
  obtain ⟨assigned, targetRun, targetEnds⟩ :=
    Parser.leads_site targetReads parser (.statement place)
  obtain ⟨last, valueRun, valueEnds⟩ :=
    Parser.leads_site valueReads parser (.assigned place ⟨extent front, target⟩ op)
  have marked : assigned.step token = some (parser.goOn
      (.expression (.assigned place ⟨extent front, target⟩ op) {})) := by
    rw [targetEnds token tokenEnds, Parser.endExpression, isOp]
  have start := (Parser.resumes_placed place).leads targetReads.ne_nil targetRun
  refine ⟨last, (start.append (.single marked)).append valueRun, ?_⟩
  intro lineEnd
  rw [valueEnds _ .newline, List.append_assoc, List.singleton_append,
    extent_infixed targetReads.ne_nil valueReads.ne_nil]
  rfl

/-- The tokens are read as a simple statement with its line end. -/
def ReadsSimple (tokens : Tokens) (stmt : Stmt) : Prop :=
  tokens ≠ [] ∧ ∀ (parser : Parser) (place : Place),
    Leads Parser.step (parser.placed place) tokens (parser.endLine place stmt (extent tokens))

/-- The line end completes a simple statement on a line or in a suite. -/
theorem readsSimple_line {node : Span → Stmt} (reads : ReadsSmall tokens node) :
    ReadsSimple (tokens ++ [⟨.newline, span⟩]) (node (extent tokens)) := by
  refine ⟨by simp, ?_⟩
  intro parser place
  obtain ⟨last, run, ends⟩ := reads parser place
  have isStop : (extent (tokens ++ [⟨.newline, span⟩])).stop = span.stop := by
    rw [extent, List.getLast?_concat]
    rfl
  have taken : last.step ⟨.newline, span⟩ = some (parser.endLine place (node (extent tokens))
      (extent (tokens ++ [⟨.newline, span⟩]))) := by
    rw [ends span]
    cases place with
    | line => rfl
    | suite owner => rw [Parser.endLine, Parser.endLine, isStop]
  exact run.append (.single taken)

end Simple

/-! ## Blocks -/

/-- The first state is the second, or holds back the choice that the second has completed. -/
inductive Settles : Parser → Parser → Prop
  | same (parser : Parser) : Settles parser parser
  | choice (parser : Parser) (opening : Span) (branches : List (Expr × List Stmt)) (stop : Nat) :
      Settles (parser.goOn (.branchEnd opening branches stop))
        (parser.endChoice opening branches stop)

/-- A choice that is held back is completed by the first token of another statement, since none
starts with a word that continues a choice. -/
theorem Settles.resumes {state settled : Parser} (settles : Settles state settled) :
    Resumes Parser.step state settled := by
  cases settles with
  | same => exact .refl state
  | choice parser opening branches stop =>
      intro token next taken
      have started : (parser.endChoice opening branches stop).startStatement token =
          some next := by
        have isStatement : (parser.endChoice opening branches stop).mode = .statement :=
          Parser.mode_append _
        rw [Parser.step, isStatement] at taken
        exact taken
      rw [Parser.step, Parser.goOn]
      dsimp only
      split
      · rename_i isElif
        obtain ⟨node, span⟩ := token
        cases isElif
        cases started
      · rename_i isElse
        obtain ⟨node, span⟩ := token
        cases isElse
        cases started
      · exact started

theorem Settles.finish? {state settled : Parser} (settles : Settles state settled) :
    state.finish? = settled.finish? := by
  cases settles with
  | same => rfl
  | choice parser opening branches stop =>
      obtain ⟨items, blocks, mode⟩ := parser
      cases blocks with
      | nil => rfl
      | cons block outer => rfl

/-- The statements are added to the innermost open block, one after the other. -/
def Parser.appendAll (parser : Parser) (stmts : List Stmt) : Parser :=
  stmts.foldl Parser.append (parser.goOn .statement)

@[simp]
theorem Parser.appendAll_concat (parser : Parser) (stmts : List Stmt) (stmt : Stmt) :
    parser.appendAll (stmts ++ [stmt]) = (parser.appendAll stmts).append stmt := by
  rw [appendAll, List.foldl_append]
  rfl

theorem Parser.appendAll_nil_blocks (items stmts : List Stmt) (mode : Mode) :
    Parser.appendAll ⟨items, [], mode⟩ stmts = ⟨items ++ stmts, [], .statement⟩ := by
  induction stmts generalizing items mode with
  | nil =>
      rw [List.append_nil]
      rfl
  | cons stmt rest inductionHypothesis =>
      have first : appendAll ⟨items, [], mode⟩ (stmt :: rest) =
          appendAll ⟨items ++ [stmt], [], .statement⟩ rest := rfl
      rw [first, inductionHypothesis, List.append_assoc, List.singleton_append]

private theorem Parser.appendAll_cons_blocks (items stmts : List Stmt) (block : Block)
    (outer : List Block) (mode : Mode) :
    Parser.appendAll ⟨items, block :: outer, mode⟩ stmts =
      ⟨items, ⟨block.owner, block.items ++ stmts⟩ :: outer, .statement⟩ := by
  induction stmts generalizing block mode with
  | nil =>
      rw [List.append_nil]
      rfl
  | cons stmt rest inductionHypothesis =>
      have first : appendAll ⟨items, block :: outer, mode⟩ (stmt :: rest) =
          appendAll ⟨items, ⟨block.owner, block.items ++ [stmt]⟩ :: outer, .statement⟩ rest := rfl
      rw [first, inductionHypothesis, List.append_assoc, List.singleton_append]

private theorem Parser.goOn_appendAll (parser : Parser) (stmts : List Stmt) :
    (parser.appendAll stmts).goOn .statement = parser.appendAll stmts := by
  obtain ⟨items, blocks, mode⟩ := parser
  cases blocks with
  | nil => rw [appendAll_nil_blocks, Parser.goOn]
  | cons block outer => rw [appendAll_cons_blocks, Parser.goOn]

/-- The tokens are read as a statement. -/
def ReadsStatement (tokens : Tokens) (stmt : Stmt) : Prop :=
  tokens ≠ [] ∧ ∀ parser : Parser, ∃ last,
    Leads Parser.step (parser.goOn .statement) tokens last ∧ Settles last (parser.append stmt)

/-- Statements are read one after the other, the last choice perhaps held back. -/
theorem leads_statements {tokens : Tokens} {stmts : List Stmt}
    (sequence : Sequence ReadsStatement tokens stmts) (parser : Parser) :
    ∃ last, Leads Parser.step (parser.goOn .statement) tokens last ∧
      Settles last (parser.appendAll stmts) := by
  induction sequence with
  | nil => exact ⟨_, .nil _, .same _⟩
  | @snoc front back stmts stmt _ reads inductionHypothesis =>
      obtain ⟨nonempty, reads⟩ := reads
      obtain ⟨middle, frontRun, frontSettles⟩ := inductionHypothesis
      obtain ⟨last, backRun, backSettles⟩ := reads (parser.appendAll stmts)
      rw [Parser.goOn_appendAll] at backRun
      refine ⟨last, frontRun.append (frontSettles.resumes.leads nonempty backRun), ?_⟩
      rw [Parser.appendAll_concat]
      exact backSettles

/-- The tokens are read as the suite of any statement. -/
def ReadsSuite (tokens : Tokens) (body : List Stmt) : Prop :=
  tokens ≠ [] ∧ ∀ (parser : Parser) (owner : Owner),
    Leads Parser.step (parser.goOn (.suite owner)) tokens
      (parser.closeSuite owner body (extent tokens).stop)

theorem readsSuite_sameLine {tokens : Tokens} {stmt : Stmt} (reads : ReadsSimple tokens stmt) :
    ReadsSuite tokens [stmt] := by
  obtain ⟨nonempty, reads⟩ := reads
  exact ⟨nonempty, fun parser owner => reads parser (.suite owner)⟩

/-- A block is read from its indent to its dedent. -/
theorem readsSuite_block {front back : Tokens} {stmts : List Stmt} {stmt : Stmt}
    {lineEnd indent dedent : Span} (sequence : Sequence ReadsStatement front stmts)
    (reads : ReadsStatement back stmt) :
    ReadsSuite (⟨.newline, lineEnd⟩ :: ⟨.indent, indent⟩ :: (front ++ back) ++
      [⟨.dedent, dedent⟩]) (stmts ++ [stmt]) := by
  refine ⟨List.cons_ne_nil _ _, ?_⟩
  intro parser owner
  obtain ⟨items, blocks, mode⟩ := parser
  obtain ⟨last, run, settles⟩ :=
    leads_statements (sequence.snoc reads) ⟨items, ⟨owner, []⟩ :: blocks, .statement⟩
  rw [Parser.appendAll_cons_blocks, List.nil_append] at settles
  have closed : last.step ⟨.dedent, dedent⟩ = some
      (Parser.closeSuite ⟨items, blocks, mode⟩ owner (stmts ++ [stmt]) dedent.stop) := by
    apply settles.resumes
    obtain ⟨first, rest, isBody⟩ : ∃ first rest, stmts ++ [stmt] = first :: rest :=
      List.exists_cons_of_ne_nil (by simp)
    rw [isBody, ← Parser.closeSuite_goOn .statement]
    rfl
  have isStop : (extent (⟨.newline, lineEnd⟩ :: ⟨.indent, indent⟩ :: (front ++ back) ++
      [⟨.dedent, dedent⟩])).stop = dedent.stop := by
    rw [extent, List.getLast?_concat]
    rfl
  rw [isStop]
  exact .cons rfl (.cons rfl (run.append (.single closed)))

end Rulebook
