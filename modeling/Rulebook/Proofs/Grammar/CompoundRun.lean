import Rulebook.Proofs.Grammar.StatementRun

/-!
# Compound statements are read

The head of a compound statement leads to its suite, and the suite completes it. At the end every
derivation of the grammar is followed by the reader, so that the tokens of a program are read as
this program.
-/

namespace Rulebook

open Grammar

theorem Grammar.stop_extent_append (front : Tokens) {back : Tokens} (nonempty : back ≠ []) :
    (extent (front ++ back)).stop = (extent back).stop := by
  obtain ⟨last, isLast⟩ : ∃ last, back.getLast? = some last :=
    ⟨_, List.getLast?_eq_some_getLast nonempty⟩
  rw [extent, extent, List.getLast?_append, isLast, Option.some_or]

/-- The suite completes the statement whose head is read. -/
theorem ReadsSuite.leads_append {first : Located Token} {middle back : Tokens} {body : List Stmt}
    {start parser : Parser} {owner : Owner} (suite : ReadsSuite back body) (node : Span → Stmt)
    (run : Leads Parser.step start (first :: middle) (parser.goOn (.suite owner)))
    (closes : ∀ stop, parser.closeSuite owner body stop =
      parser.append (node ⟨first.span.start, stop⟩)) :
    Leads Parser.step start (first :: middle ++ back)
      (parser.append (node (extent (first :: middle ++ back)))) := by
  obtain ⟨nonempty, suite⟩ := suite
  have isExtent : extent (first :: middle ++ back) = ⟨first.span.start, (extent back).stop⟩ :=
    extent_append (List.cons_ne_nil first middle) nonempty
  rw [isExtent, ← closes]
  exact run.append (suite parser owner)

/-- A function or a class is read, after decorators or without them. -/
def ReadsDefinition (tokens : Tokens) (node : Span → Stmt) : Prop :=
  tokens ≠ [] ∧ ∀ (parser : Parser) (mode : Mode), mode = .statement ∨ mode = .decorated →
    Leads Parser.step (parser.goOn mode) tokens (parser.append (node (extent tokens)))

/-- The tokens are read as the line of a decorator. -/
def ReadsDecorator (tokens : Tokens) (_ : Unit) : Prop :=
  ∀ (parser : Parser) (mode : Mode), mode = .statement ∨ mode = .decorated →
    Leads Parser.step (parser.goOn mode) tokens (parser.goOn .decorated)

/-- The tokens are read as one parameter, which a comma or the closing bracket adds to the
others. -/
def ReadsParameter (tokens : Tokens) (param : Param) : Prop :=
  ∀ (parser : Parser) (header : Header), ∃ last,
    Leads Parser.step (parser.goOn (.parameter header)) tokens last ∧
      ∀ token : Located Token, token.node = .symbol .comma ∨ token.node = .symbol .rightParen →
        last.step token = parser.endParam header param token.node

/-- The token is the name. -/
def IsName (tokens : Tokens) (name : Located String) : Prop :=
  tokens = [⟨.name name.node, name.span⟩]

section Definitions

variable {front middle inside back tokens nameTokens : Tokens} {name : Located String}
  {expr : Expr} {opening left right colon : Span} {body : List Stmt}

private theorem readsDecorator {closing : Span} (reads : ReadsExpr .test tokens expr) :
    ReadsDecorator (⟨.symbol .at, opening⟩ :: tokens ++ [⟨.newline, closing⟩]) () := by
  intro parser mode starts
  obtain ⟨last, run, ends⟩ := Parser.leads_site reads parser .decorator
  have opened : (parser.goOn mode).step ⟨.symbol .at, opening⟩ =
      some (parser.goOn (.expression .decorator {})) := by
    rcases starts with rfl | rfl <;> rfl
  exact .cons opened (run.append (.single (ends _ .newline)))

private theorem leads_decorators {marks : List Unit}
    (sequence : Sequence ReadsDecorator front marks)
    {mark : Unit} (last : ReadsDecorator back mark) (parser : Parser) :
    Leads Parser.step (parser.goOn .statement) (front ++ back) (parser.goOn .decorated) := by
  induction sequence generalizing back mark with
  | nil => exact last parser .statement (Or.inl rfl)
  | snoc _ previous inductionHypothesis =>
      exact (inductionHypothesis previous).append (last parser .decorated (Or.inr rfl))

/-- A parameter is read with its type and its default value, as far as they are there. With or
without a type, an equals sign leads to the default value. -/
theorem readsParameter {typeHint default : Option Expr} (isName : IsName front name)
    (hinted : Optional (Preceded (.symbol .colon) (ReadsExpr .test)) middle typeHint)
    (defaulted : Optional (Preceded (.symbol .assign) (ReadsExpr .test)) back default) :
    ReadsParameter (front ++ middle ++ back) ⟨name, typeHint, default⟩ := by
  intro parser header
  cases isName
  have named : Leads Parser.step (parser.goOn (.parameter header))
      [⟨.name name.node, name.span⟩] (parser.goOn (.parameterName header name)) := .single rfl
  obtain ⟨hintLast, hintRun, hintAssign, hintEnds⟩ : ∃ last,
      Leads Parser.step (parser.goOn (.parameterName header name)) middle last ∧
        (∀ span, last.step ⟨.symbol .assign, span⟩ =
          some (parser.goOn (.expression (.default header name typeHint) {}))) ∧
        ∀ token : Located Token, token.node = .symbol .comma ∨ token.node = .symbol .rightParen →
          last.step token = parser.endParam header ⟨name, typeHint, none⟩ token.node := by
    cases typeHint with
    | none =>
        cases hinted
        refine ⟨_, .nil _, fun span => rfl, ?_⟩
        rintro ⟨node, span⟩ (isComma | isParen)
        · cases isComma
          rfl
        · cases isParen
          rfl
    | some hint =>
        obtain ⟨mark, hintTokens, rfl, reads⟩ := hinted
        obtain ⟨last, run, ends⟩ := Parser.leads_site reads parser (.typeHint header name)
        refine ⟨last, .cons rfl run, fun span => ends _ .assign, ?_⟩
        rintro ⟨node, span⟩ (isComma | isParen)
        · cases isComma
          exact ends _ .comma
        · cases isParen
          exact ends _ .rightParen
  cases default with
  | none =>
      cases defaulted
      rw [List.append_nil]
      exact ⟨hintLast, named.append hintRun, hintEnds⟩
  | some value =>
      obtain ⟨mark, defaultTokens, rfl, reads⟩ := defaulted
      obtain ⟨last, run, ends⟩ := Parser.leads_site reads parser (.default header name typeHint)
      refine ⟨last, (named.append hintRun).append (.cons (hintAssign mark) run), ?_⟩
      rintro ⟨node, span⟩ (isComma | isParen)
      · cases isComma
        exact ends _ .comma
      · cases isParen
        exact ends _ .rightParen

private theorem leads_parameters {params : List Param}
    (listed : Listed ReadsParameter inside params)
    (parser : Parser) (right : Span) :
    Leads Parser.step (parser.goOn (.parameter ⟨opening, name, []⟩))
      (inside ++ [⟨.symbol .rightParen, right⟩])
      (parser.goOn (.signature ⟨opening, name, params⟩)) := by
  refine listed.leads (fun soFar => parser.goOn (.parameter ⟨opening, name, soFar⟩))
    (fun soFar => parser.goOn (.signature ⟨opening, name, soFar⟩)) ?_ ?_ ?_ []
  · intro soFar stretch param span reads
    obtain ⟨last, run, ends⟩ := reads parser ⟨opening, name, soFar⟩
    exact run.append (.single (ends _ (Or.inl rfl)))
  · intro soFar stretch param reads
    obtain ⟨last, run, ends⟩ := reads parser ⟨opening, name, soFar⟩
    exact run.append (.single (ends _ (Or.inr rfl)))
  · intro soFar
    rfl

private theorem leads_returns {returns : Option Expr} {header : Header}
    (arrow : Optional (Preceded (.symbol .arrow) (ReadsExpr .test)) tokens returns)
    (parser : Parser) (colon : Span) :
    Leads Parser.step (parser.goOn (.signature header)) (tokens ++ [⟨.symbol .colon, colon⟩])
      (parser.goOn (.suite (.function header returns))) := by
  cases returns with
  | none =>
      cases arrow
      exact .single rfl
  | some value =>
      obtain ⟨mark, valueTokens, rfl, reads⟩ := arrow
      obtain ⟨last, run, ends⟩ := Parser.leads_site reads parser (.returns header)
      exact .cons rfl (run.append (.single (ends _ .colon)))

/-- A function is read with its parameters, its type and its body. -/
theorem readsDefinition_function {arrow : Tokens} {params : List Param} {returns : Option Expr}
    (isName : IsName nameTokens name) (listed : Listed ReadsParameter inside params)
    (returned : Optional (Preceded (.symbol .arrow) (ReadsExpr .test)) arrow returns)
    (suite : ReadsSuite back body) :
    ReadsDefinition
      (⟨.keyword .defKw, opening⟩ :: nameTokens ++ ⟨.symbol .leftParen, left⟩ :: inside ++
        ⟨.symbol .rightParen, right⟩ :: arrow ++ ⟨.symbol .colon, colon⟩ :: back)
      (.function · name params returns body) := by
  refine ⟨by simp, ?_⟩
  intro parser mode starts
  cases isName
  have opened : (parser.goOn mode).step ⟨.keyword .defKw, opening⟩ =
      some (parser.goOn (.functionName opening)) := by
    rcases starts with rfl | rfl <;> rfl
  have named : Leads Parser.step (parser.goOn (.functionName opening))
      [⟨.name name.node, name.span⟩, ⟨.symbol .leftParen, left⟩]
      (parser.goOn (.parameter ⟨opening, name, []⟩)) := .cons rfl (.single rfl)
  have head := Leads.cons opened ((named.append (leads_parameters listed parser right)).append
    (leads_returns returned parser colon))
  have run := suite.leads_append (.function · name params returns body) head fun stop => rfl
  simpa only [List.cons_append, List.append_assoc, List.nil_append] using run

private theorem leads_base {token : Located Token} {next : Parser} {bases : List Expr}
    (reads : ReadsExpr .test tokens expr) (parser : Parser)
    (ends : token.node.EndsExpression)
    (taken : parser.endExpression (.base opening name bases) ⟨extent tokens, expr⟩ token =
      some next) :
    Leads Parser.step (parser.goOn (.base opening name bases)) (tokens ++ [token]) next := by
  obtain ⟨last, run, after⟩ := Parser.leads_site reads parser (.base opening name bases)
  have resumed := (Parser.resumes_base opening name bases).leads reads.ne_nil run
  exact resumed.append (.single ((after token ends).trans taken))

private theorem leads_bases {bases : Option (List Expr)}
    (listed : Optional (Preceded (.symbol .leftParen)
      (Followed (Listed (ReadsExpr .test)) (.symbol .rightParen))) tokens bases)
    (parser : Parser) (colon : Span) :
    Leads Parser.step (parser.goOn (.classOpen opening name)) (tokens ++ [⟨.symbol .colon, colon⟩])
      (parser.goOn (.suite (.classDef opening name (bases.getD [])))) := by
  cases bases with
  | none =>
      cases listed
      exact .single rfl
  | some bases =>
      obtain ⟨left, _, rfl, inside, right, rfl, listed⟩ := listed
      have run : Leads Parser.step (parser.goOn (.base opening name []))
          (inside ++ [⟨.symbol .rightParen, right⟩])
          (parser.goOn (.colon (.classDef opening name bases))) := by
        refine listed.leads (fun soFar => parser.goOn (.base opening name soFar))
          (fun soFar => parser.goOn (.colon (.classDef opening name soFar))) ?_ ?_ ?_ []
        · intro soFar stretch value span reads
          exact leads_base reads parser .comma rfl
        · intro soFar stretch value reads
          exact leads_base reads parser .rightParen rfl
        · intro soFar
          rfl
      exact .cons rfl (run.append (.single rfl))

private theorem readsDefinition_class {bases : Option (List Expr)} (isName : IsName nameTokens name)
    (listed : Optional (Preceded (.symbol .leftParen)
      (Followed (Listed (ReadsExpr .test)) (.symbol .rightParen))) inside bases)
    (suite : ReadsSuite back body) :
    ReadsDefinition
      (⟨.keyword .classKw, opening⟩ :: nameTokens ++ inside ++ ⟨.symbol .colon, colon⟩ :: back)
      (.classDef · name (bases.getD []) body) := by
  refine ⟨by simp, ?_⟩
  intro parser mode starts
  cases isName
  have opened : (parser.goOn mode).step ⟨.keyword .classKw, opening⟩ =
      some (parser.goOn (.className opening)) := by
    rcases starts with rfl | rfl <;> rfl
  have named : Leads Parser.step (parser.goOn (.className opening))
      [⟨.name name.node, name.span⟩] (parser.goOn (.classOpen opening name)) := .single rfl
  have head := Leads.cons opened (named.append (leads_bases listed parser colon))
  have run := suite.leads_append (.classDef · name (bases.getD []) body) head fun stop => rfl
  simpa only [List.cons_append, List.append_assoc, List.nil_append] using run

private theorem ReadsDefinition.readsStatement {node : Span → Stmt}
    (reads : ReadsDefinition tokens node) :
    ReadsStatement tokens (node (extent tokens)) :=
  ⟨reads.1, fun parser => ⟨_, reads.2 parser .statement (Or.inl rfl), .same _⟩⟩

/-- Decorators before a definition leave no trace of themselves. -/
theorem ReadsDefinition.readsStatement_decorated {decorators : Tokens} {node : Span → Stmt}
    {marks : List Unit} {mark : Unit} (reads : ReadsDefinition tokens node)
    (sequence : Sequence ReadsDecorator decorators marks) (last : ReadsDecorator back mark) :
    ReadsStatement (decorators ++ back ++ tokens) (node (extent tokens)) := by
  refine ⟨by simp [reads.1], ?_⟩
  intro parser
  have run := (leads_decorators sequence last parser).append
    (reads.2 parser .decorated (Or.inr rfl))
  exact ⟨_, run, .same _⟩

end Definitions

/-! ## Loops and choices -/

section Conditions

variable {test first back front others last tokens : Tokens} {condition iterable : Expr}
  {opening colon inside : Span} {body : List Stmt}

/-- A condition before its suite. -/
theorem leads_condition {site : Site} {owner : Owner} (reads : ReadsExpr .test test condition)
    (parser : Parser) (colon : Span)
    (taken : parser.endExpression site ⟨extent test, condition⟩ ⟨.symbol .colon, colon⟩ =
      some (parser.goOn (.suite owner))) :
    Leads Parser.step (parser.goOn (.expression site {})) (test ++ [⟨.symbol .colon, colon⟩])
      (parser.goOn (.suite owner)) := by
  obtain ⟨last, run, ends⟩ := Parser.leads_site reads parser site
  exact run.append (.single ((ends _ .colon).trans taken))

private theorem readsStatement_whileLoop (reads : ReadsExpr .test test condition)
    (suite : ReadsSuite back body) :
    ReadsStatement
      (⟨.keyword .whileKw, opening⟩ :: test ++ ⟨.symbol .colon, colon⟩ :: back)
      (.whileLoop (extent (⟨.keyword .whileKw, opening⟩ :: test ++ ⟨.symbol .colon, colon⟩ :: back))
        condition body) := by
  refine ⟨by simp, ?_⟩
  intro parser
  have opened : (parser.goOn .statement).step ⟨.keyword .whileKw, opening⟩ =
      some (parser.goOn (.expression (.loop opening) {})) := rfl
  have head := Leads.cons opened (leads_condition reads parser colon rfl)
  have run := suite.leads_append (.whileLoop · condition body) head fun stop => rfl
  rw [List.append_cons]
  exact ⟨_, run, .same _⟩

/-- The tokens are read as the variables of a loop. -/
def ReadsTargets (tokens : Tokens) (targets : List (Located String)) : Prop :=
  ∀ (parser : Parser) (opening : Span),
    Leads Parser.step (parser.goOn (.target opening [])) tokens
      (parser.goOn (.targetEnd opening targets))

private theorem readsTargets {name : Located String} {names : List (Located String)}
    (isName : IsName front name)
    (sequence : Sequence (Preceded (.symbol .comma) IsName) back names) :
    ReadsTargets (front ++ back) (name :: names) := by
  intro parser opening
  cases isName
  have each : ∀ soFar stretch other, Preceded (.symbol .comma) IsName stretch other →
      Leads Parser.step (parser.goOn (.targetEnd opening soFar)) stretch
        (parser.goOn (.targetEnd opening (soFar ++ [other]))) := by
    rintro soFar _ other ⟨comma, _, rfl, rfl⟩
    exact .cons rfl (.single rfl)
  exact .cons rfl (sequence.leads each [name])

private theorem readsStatement_forEach {targets : List (Located String)}
    (targetsRead : ReadsTargets front targets) (reads : ReadsExpr .test test iterable)
    (suite : ReadsSuite back body) :
    ReadsStatement
      (⟨.keyword .forKw, opening⟩ :: front ++ ⟨.keyword .inKw, inside⟩ :: test ++
        ⟨.symbol .colon, colon⟩ :: back)
      (.forEach (extent (⟨.keyword .forKw, opening⟩ :: front ++ ⟨.keyword .inKw, inside⟩ :: test ++
        ⟨.symbol .colon, colon⟩ :: back)) targets iterable body) := by
  refine ⟨by simp, ?_⟩
  intro parser
  have opened : (parser.goOn .statement).step ⟨.keyword .forKw, opening⟩ =
      some (parser.goOn (.target opening [])) := rfl
  have inWord : (parser.goOn (.targetEnd opening targets)).step ⟨.keyword .inKw, inside⟩ =
      some (parser.goOn (.expression (.iterable opening targets) {})) := rfl
  have head := Leads.cons opened ((targetsRead parser opening).append
    (.cons inWord (leads_condition reads parser colon rfl)))
  have run := suite.leads_append (.forEach · targets iterable body) head fun stop => rfl
  refine ⟨_, ?_, .same _⟩
  simpa only [List.cons_append, List.append_assoc, List.nil_append] using run

/-- The tokens are read as a further branch of a choice. -/
def ReadsElif (tokens : Tokens) (branch : Expr × List Stmt) : Prop :=
  tokens ≠ [] ∧ ∀ (parser : Parser) (opening : Span) (branches : List (Expr × List Stmt))
      (stop : Nat),
    Leads Parser.step (parser.goOn (.branchEnd opening branches stop)) tokens
      (parser.goOn (.branchEnd opening (branches ++ [branch]) (extent tokens).stop))

/-- The tokens are read as the last alternative of a choice. -/
def ReadsElse (tokens : Tokens) (body : List Stmt) : Prop :=
  tokens ≠ [] ∧ ∀ (parser : Parser) (opening : Span) (branches : List (Expr × List Stmt))
      (stop : Nat),
    Leads Parser.step (parser.goOn (.branchEnd opening branches stop)) tokens
      (parser.append (.choice ⟨opening.start, (extent tokens).stop⟩
        (Parser.chainOf branches (.otherwise body))))

private theorem readsElif (reads : ReadsExpr .test test condition) (suite : ReadsSuite back body) :
    ReadsElif (⟨.keyword .elifKw, opening⟩ :: test ++ ⟨.symbol .colon, colon⟩ :: back)
      (condition, body) := by
  refine ⟨by simp, ?_⟩
  intro parser start branches stop
  obtain ⟨nonempty, suite⟩ := suite
  have head : Leads Parser.step (parser.goOn (.branchEnd start branches stop))
      (⟨.keyword .elifKw, opening⟩ :: (test ++ [⟨.symbol .colon, colon⟩]))
      (parser.goOn (.suite (.branch start branches condition))) :=
    .cons rfl (leads_condition reads parser colon rfl)
  rw [List.append_cons, stop_extent_append _ nonempty]
  exact head.append (suite parser _)

private theorem readsElse (suite : ReadsSuite back body) :
    ReadsElse (⟨.keyword .elseKw, opening⟩ :: ⟨.symbol .colon, colon⟩ :: back) body := by
  refine ⟨by simp, ?_⟩
  intro parser start branches stop
  obtain ⟨nonempty, suite⟩ := suite
  have isStop : (extent (⟨.keyword .elseKw, opening⟩ :: ⟨.symbol .colon, colon⟩ :: back)).stop =
      (extent back).stop := stop_extent_append [_, _] nonempty
  rw [isStop]
  exact .cons rfl (.cons rfl (suite parser _))

private theorem leads_elifs {branches : List (Expr × List Stmt)}
    (sequence : Sequence ReadsElif others branches) (parser : Parser) (opening : Span)
    (earlier : List (Expr × List Stmt)) (front : Tokens) :
    Leads Parser.step (parser.goOn (.branchEnd opening earlier (extent front).stop)) others
      (parser.goOn (.branchEnd opening (earlier ++ branches) (extent (front ++ others)).stop)) := by
  induction sequence with
  | nil =>
      rw [List.append_nil, List.append_nil]
      exact .nil _
  | snoc _ reads inductionHypothesis =>
      obtain ⟨nonempty, reads⟩ := reads
      rw [← List.append_assoc, ← List.append_assoc, stop_extent_append _ nonempty]
      exact inductionHypothesis.append (reads parser opening _ _)

theorem chainOf_eq_chain (branches : List (Expr × List Stmt)) (otherwise : Option (List Stmt)) :
    Parser.chainOf branches (chain [] otherwise) = chain branches otherwise := by
  induction branches with
  | nil => rfl
  | cons branch rest inductionHypothesis =>
      rw [chain, ← inductionHypothesis]
      rfl

/-- A choice is read with all its branches and the last alternative, if there is one. -/
theorem readsStatement_choice {branches : List (Expr × List Stmt)}
    {otherwise : Option (List Stmt)} (reads : ReadsExpr .test test condition)
    (suite : ReadsSuite first body) (sequence : Sequence ReadsElif others branches)
    (optional : Optional ReadsElse last otherwise) :
    ReadsStatement
      (⟨.keyword .ifKw, opening⟩ :: test ++ ⟨.symbol .colon, colon⟩ :: first ++ others ++ last)
      (.choice (extent (⟨.keyword .ifKw, opening⟩ :: test ++ ⟨.symbol .colon, colon⟩ :: first ++
        others ++ last)) (chain ((condition, body) :: branches) otherwise)) := by
  refine ⟨by simp, ?_⟩
  intro parser
  obtain ⟨nonempty, suite⟩ := suite
  have head : Leads Parser.step (parser.goOn .statement)
      (⟨.keyword .ifKw, opening⟩ :: (test ++ [⟨.symbol .colon, colon⟩]))
      (parser.goOn (.suite (.branch opening [] condition))) :=
    .cons rfl (leads_condition reads parser colon rfl)
  have firstRun := head.append (suite parser _)
  rw [← List.cons_append,
    ← stop_extent_append (⟨.keyword .ifKw, opening⟩ :: test ++ [⟨.symbol .colon, colon⟩]) nonempty,
    ← List.append_cons] at firstRun
  have run := firstRun.append (leads_elifs sequence parser opening [(condition, body)] _)
  cases otherwise with
  | none =>
      cases optional
      rw [List.append_nil, ← chainOf_eq_chain]
      exact ⟨_, run, .choice parser opening _ _⟩
  | some final =>
      obtain ⟨lastNonempty, lastReads⟩ := optional
      have lastRun := run.append (lastReads parser opening _ _)
      rw [← stop_extent_append (⟨.keyword .ifKw, opening⟩ :: test ++
        ⟨.symbol .colon, colon⟩ :: first ++ others) lastNonempty] at lastRun
      rw [← chainOf_eq_chain]
      exact ⟨_, lastRun, .same _⟩

end Conditions

/-! ## All phrases -/

/-- The token is an operator between two operands, of the given strength. -/
def IsArithmetic (strength : Nat) (tokens : Tokens) (op : Arithmetic) : Prop :=
  ∃ token : Located Token, tokens = [token] ∧ op ≠ .pow ∧
    token.node.binary? = some (.arithmetic op) ∧ op.strength = strength

/-- How the reader takes the tokens of a phrase. -/
def Follows : (phrase : Phrase) → Tokens → phrase.Value → Prop
  | .file => fun tokens program =>
      ∃ last, Leads Parser.step {} tokens last ∧ last.finish? = some program
  | .statement | .compoundStatement => ReadsStatement
  | .simpleStatement => ReadsSimple
  | .smallStatement => ReadsSmall
  | .assignment => IsAssignment
  | .decorator => ReadsDecorator
  | .function | .classDef => ReadsDefinition
  | .choice | .whileLoop | .forEach => fun tokens node =>
      ReadsStatement tokens (node (extent tokens))
  | .parameter => ReadsParameter
  | .elifClause => ReadsElif
  | .elseClause => ReadsElse
  | .targets => ReadsTargets
  | .suite => ReadsSuite
  | .name => IsName
  | .expression level => ReadsExpr level
  | .form level => Forms level
  | .relation => Relates
  | .link => Links
  | .additive => IsArithmetic 6
  | .multiplicative => IsArithmetic 7
  | .argument => ReadsArgument
  | .string => IsString
  | .optional phrase => Optional (Follows phrase)
  | .many phrase => Sequence (Follows phrase)
  | .several phrase => fun tokens values => ∃ front back earlier last,
      tokens = front ++ back ∧ values = earlier ++ [last] ∧
        Sequence (Follows phrase) front earlier ∧ Follows phrase back last
  | .listed phrase => Listed (Follows phrase)
  | .after mark phrase => Preceded mark (Follows phrase)
  | .before phrase mark => Followed (Follows phrase) mark

private theorem readsStatement_simple {tokens : Tokens} {stmt : Stmt}
    (reads : ReadsSimple tokens stmt) :
    ReadsStatement tokens stmt :=
  ⟨reads.1, fun parser => ⟨_, reads.2 parser .line, .same _⟩⟩

private theorem follows_file {tokens : Tokens} {items : List Stmt}
    (sequence : Sequence ReadsStatement tokens items) : Follows .file tokens ⟨items⟩ := by
  obtain ⟨last, run, settles⟩ := leads_statements sequence {}
  rw [Parser.appendAll_nil_blocks, List.nil_append] at settles
  refine ⟨last, run, ?_⟩
  rw [settles.finish?]
  rfl

private theorem isArithmetic_single {strength : Nat} {token : Token} {span : Span} {op : Arithmetic}
    (notPow : op ≠ .pow) (spelled : token.binary? = some (.arithmetic op))
    (isStrength : op.strength = strength) : IsArithmetic strength [⟨token, span⟩] op :=
  ⟨_, rfl, notPow, spelled, isStrength⟩

/-- Whatever the grammar derives, the reader follows. -/
theorem follows_of_derives {phrase : Phrase} {tokens : Tokens} {value : phrase.Value}
    (derivation : Derives phrase tokens value) : Follows phrase tokens value := by
  induction derivation with
  | absent => exact rfl
  | present _ reads => exact reads
  | nothing => exact .nil
  | another _ _ sequence last => exact .snoc sequence last
  | several _ _ sequence last => exact ⟨_, _, _, _, rfl, rfl, sequence, last⟩
  | listed _ _ sequence last => exact ⟨_, _, _, _, rfl, rfl, sequence, last⟩
  | after _ reads => exact ⟨_, _, rfl, reads⟩
  | before _ reads => exact ⟨_, _, rfl, reads⟩
  | file _ sequence => exact follows_file sequence
  | simple _ reads => exact readsStatement_simple reads
  | compound _ reads => exact reads
  | line _ reads => exact readsSimple_line reads
  | returning _ optional => exact readsSmall_returning optional
  | pass => exact readsSmall_pass
  | breaking => exact readsSmall_breaking
  | continuing => exact readsSmall_continuing
  | expr _ reads => exact readsSmall_expr reads
  | assign _ _ _ target op value => exact readsSmall_assign target op value
  | set => exact ⟨_, rfl, .assign, rfl⟩
  | setSum => exact ⟨_, rfl, .plusAssign, rfl⟩
  | setDifference => exact ⟨_, rfl, .minusAssign, rfl⟩
  | setProduct => exact ⟨_, rfl, .starAssign, rfl⟩
  | setQuotient => exact ⟨_, rfl, .slashAssign, rfl⟩
  | plainFunction _ reads | plainClass _ reads => exact reads.readsStatement
  | decoratedFunction _ _ decorators reads | decoratedClass _ _ decorators reads =>
      obtain ⟨front, back, earlier, last, rfl, rfl, sequence, decorator⟩ := decorators
      exact reads.readsStatement_decorated sequence decorator
  | choiceStatement _ reads | whileStatement _ reads | forStatement _ reads => exact reads
  | decorator _ reads => exact readsDecorator reads
  | function _ _ _ _ name params returns suite =>
      exact readsDefinition_function name params returns suite
  | parameter _ _ _ name typeHint default => exact readsParameter name typeHint default
  | classDef _ _ _ name bases suite => exact readsDefinition_class name bases suite
  | choice _ _ _ _ condition suite branches otherwise =>
      exact readsStatement_choice condition suite branches otherwise
  | elifClause _ _ condition suite => exact readsElif condition suite
  | elseClause _ suite => exact readsElse suite
  | whileLoop _ _ condition suite => exact readsStatement_whileLoop condition suite
  | forEach _ _ _ targets iterable suite => exact readsStatement_forEach targets iterable suite
  | targets _ _ first others => exact readsTargets first others
  | block _ statements =>
      obtain ⟨front, back, earlier, last, rfl, rfl, sequence, statement⟩ := statements
      exact readsSuite_block sequence statement
  | sameLine _ reads => exact readsSuite_sameLine reads
  | name => exact rfl
  | tighter _ reads => exact reads.tighter
  | formed _ reads => exact reads
  | conditional _ _ _ body test otherwise => exact forms_conditional body test otherwise
  | or _ _ left right => exact forms_connective rfl rfl (by decide) left right
  | and _ _ left right => exact forms_connective rfl rfl (by decide) left right
  | not _ reads => exact forms_not reads
  | comparison _ _ left links =>
      obtain ⟨front, back, earlier, last, rfl, rfl, sequence, link⟩ := links
      exact forms_comparison left sequence link
  | link _ _ relation right => exact ⟨_, _, rfl, relation, right⟩
  | less | greater | lessEqual | greaterEqual | equal | notEqual | isIn =>
      exact relates_of_binary rfl
  | notIn => exact relates_notIn
  | same => exact relates_same
  | notSame => exact relates_notSame
  | sum _ _ _ left op right =>
      obtain ⟨token, rfl, notPow, spelled, strength⟩ := op
      rw [List.append_assoc]
      exact forms_arithmetic notPow spelled strength (by decide) left right
  | product _ _ _ left op right =>
      obtain ⟨token, rfl, notPow, spelled, strength⟩ := op
      rw [List.append_assoc]
      exact forms_arithmetic notPow spelled strength (by decide) left right
  | plus | minus | star | slash | slashSlash | percent =>
      exact isArithmetic_single (by decide) rfl rfl
  | negative _ reads | positive _ reads => exact forms_signed rfl reads
  | power _ _ left right => exact forms_power left right
  | call _ _ function arguments => exact forms_call function arguments
  | subscript _ _ container index => exact forms_subscript container index
  | field _ reads => exact forms_attribute reads
  | positional _ reads => exact readsArgument_positional reads
  | keyword _ reads => exact readsArgument_keyword reads
  | identifier => exact forms_name
  | int | float | markedString | true | false | none => exact forms_constant rfl
  | strings _ contents =>
      obtain ⟨front, back, earlier, last, rfl, rfl, sequence, content⟩ := contents
      exact forms_strings sequence content
  | string => exact ⟨_, rfl⟩
  | group _ reads => exact reads_group reads
  | emptyTuple => exact forms_emptyTuple
  | tuple _ _ first others => exact forms_tuple first others
  | list _ items => exact forms_list items

end Rulebook
