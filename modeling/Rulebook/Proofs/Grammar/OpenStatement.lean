import Rulebook.Proofs.Grammar.Unfinished

/-!
# What the state of the reader stands for

The complete statements, the open blocks with their owners and what the last token left stand
together for all tokens read so far. A statement, a suite or a block that is complete stands for its
tokens as the grammar says.
-/

namespace Rulebook

open Grammar

/-- The header stands for its decorators, its opening and its complete parameters, each with the
comma after it. -/
inductive Header.Opens : Header → Tokens → Prop
  | mk {decorators nameTokens inside : Tokens} {marks : List Unit} {opening left : Span}
      {name : Located String} {params : List Param} :
      Derives (.many .decorator) decorators marks →
      Derives .name nameTokens name →
      Derives (.many (.before .parameter (.symbol .comma))) inside params →
      Opens ⟨opening, name, params⟩
        (decorators ++ ⟨.keyword .defKw, opening⟩ :: nameTokens ++
          ⟨.symbol .leftParen, left⟩ :: inside)

/-- The header stands for everything up to the end of its parameters. -/
inductive Header.Closes : Header → Tokens → Prop
  | mk {decorators nameTokens inside : Tokens} {marks : List Unit} {opening left right : Span}
      {name : Located String} {params : List Param} :
      Derives (.many .decorator) decorators marks →
      Derives .name nameTokens name →
      Derives (.listed .parameter) inside params →
      Closes ⟨opening, name, params⟩
        (decorators ++ ⟨.keyword .defKw, opening⟩ :: nameTokens ++
          ⟨.symbol .leftParen, left⟩ :: inside ++ [⟨.symbol .rightParen, right⟩])

/-- The complete branches of a choice stand for the tokens. -/
inductive Branches (opening : Span) : List (Expr × List Stmt) → Tokens → Prop
  | mk {test first others : Tokens} {condition : Expr} {body : List Stmt}
      {branches : List (Expr × List Stmt)} {colon : Span} :
      Derives (.expression .test) test condition →
      Derives .suite first body →
      Derives (.many .elifClause) others branches →
      Branches opening ((condition, body) :: branches)
        (⟨.keyword .ifKw, opening⟩ :: test ++ ⟨.symbol .colon, colon⟩ :: first ++ others)

/-- The branches of a choice stand for the tokens up to the word before the next condition. -/
inductive Branching (opening : Span) : List (Expr × List Stmt) → Tokens → Prop
  | first : Branching opening [] [⟨.keyword .ifKw, opening⟩]
  | later {branches : List (Expr × List Stmt)} {front : Tokens} {span : Span} :
      Branches opening branches front →
      Branching opening branches (front ++ [⟨.keyword .elifKw, span⟩])

/-- The owner stands for everything before its colon. -/
inductive Owner.Stands : Owner → Tokens → Prop
  | function {header : Header} {returns : Option Expr} {front arrow : Tokens} :
      header.Closes front →
      Derives (.optional (.after (.symbol .arrow) (.expression .test))) arrow returns →
      Stands (.function header returns) (front ++ arrow)
  | classDef {decorators nameTokens inside : Tokens} {marks : List Unit} {opening : Span}
      {name : Located String} {bases : Option (List Expr)} :
      Derives (.many .decorator) decorators marks →
      Derives .name nameTokens name →
      Derives (.optional (.after (.symbol .leftParen)
        (.before (.listed (.expression .test)) (.symbol .rightParen)))) inside bases →
      Stands (.classDef opening name (bases.getD []))
        (decorators ++ ⟨.keyword .classKw, opening⟩ :: nameTokens ++ inside)
  | branch {opening : Span} {branches : List (Expr × List Stmt)} {condition : Expr}
      {front test : Tokens} :
      Branching opening branches front →
      Derives (.expression .test) test condition →
      Stands (.branch opening branches condition) (front ++ test)
  | otherwise {opening span : Span} {branches : List (Expr × List Stmt)} {front : Tokens} :
      Branches opening branches front →
      Stands (.otherwise opening branches) (front ++ [⟨.keyword .elseKw, span⟩])
  | whileLoop {opening : Span} {test : Tokens} {condition : Expr} :
      Derives (.expression .test) test condition →
      Stands (.whileLoop opening condition) (⟨.keyword .whileKw, opening⟩ :: test)
  | forEach {opening inside : Span} {front test : Tokens} {targets : List (Located String)}
      {iterable : Expr} :
      Derives .targets front targets →
      Derives (.expression .test) test iterable →
      Stands (.forEach opening targets iterable)
        (⟨.keyword .forKw, opening⟩ :: front ++ ⟨.keyword .inKw, inside⟩ :: test)

inductive Place.Stands : Place → Tokens → Prop
  | line : Stands .line []
  | suite {owner : Owner} {front : Tokens} {colon : Span} :
      owner.Stands front →
      Stands (.suite owner) (front ++ [⟨.symbol .colon, colon⟩])

/-- The class stands for its decorators, its opening and its complete bases. -/
inductive BasesOpen (opening : Span) (name : Located String) : List Expr → Tokens → Prop
  | mk {decorators nameTokens inside : Tokens} {marks : List Unit} {left : Span}
      {bases : List Expr} :
      Derives (.many .decorator) decorators marks →
      Derives .name nameTokens name →
      Derives (.many (.before (.expression .test) (.symbol .comma))) inside bases →
      BasesOpen opening name bases
        (decorators ++ ⟨.keyword .classKw, opening⟩ :: nameTokens ++
          ⟨.symbol .leftParen, left⟩ :: inside)

/-- The site stands for the tokens before its expression. -/
inductive Site.Stands : Site → Tokens → Prop
  | statement {place : Place} {front : Tokens} :
      place.Stands front →
      Stands (.statement place) front
  | assigned {place : Place} {front middle back : Tokens} {target : Operand} {op : Assignment} :
      place.Stands front →
      target.Means 1 middle →
      Derives .assignment back op →
      Stands (.assigned place target op) (front ++ (middle ++ back))
  | returned {place : Place} {front : Tokens} {opening : Span} :
      place.Stands front →
      Stands (.returned place opening) (front ++ [⟨.keyword .returnKw, opening⟩])
  | decorator {front : Tokens} {marks : List Unit} {span : Span} :
      Derives (.many .decorator) front marks →
      Stands .decorator (front ++ [⟨.symbol .at, span⟩])
  | condition {opening : Span} {branches : List (Expr × List Stmt)} {front : Tokens} :
      Branching opening branches front →
      Stands (.condition opening branches) front
  | loop {opening : Span} : Stands (.loop opening) [⟨.keyword .whileKw, opening⟩]
  | iterable {opening inside : Span} {front : Tokens} {targets : List (Located String)} :
      Derives .targets front targets →
      Stands (.iterable opening targets)
        (⟨.keyword .forKw, opening⟩ :: front ++ [⟨.keyword .inKw, inside⟩])
  | typeHint {header : Header} {name : Located String} {front middle : Tokens} {mark : Span} :
      header.Opens front →
      Derives .name middle name →
      Stands (.typeHint header name) (front ++ (middle ++ [⟨.symbol .colon, mark⟩]))
  | default {header : Header} {name : Located String} {typeHint : Option Expr}
      {front middle hint : Tokens} {mark : Span} :
      header.Opens front →
      Derives .name middle name →
      Derives (.optional (.after (.symbol .colon) (.expression .test))) hint typeHint →
      Stands (.default header name typeHint)
        (front ++ (middle ++ hint ++ [⟨.symbol .assign, mark⟩]))
  | returns {header : Header} {front : Tokens} {mark : Span} :
      header.Closes front →
      Stands (.returns header) (front ++ [⟨.symbol .arrow, mark⟩])
  | base {opening : Span} {name : Located String} {bases : List Expr} {front : Tokens} :
      BasesOpen opening name bases front →
      Stands (.base opening name bases) front

/-- What the last token left stands for the tokens since the last complete statement. -/
inductive Mode.Stands : Mode → Tokens → Prop
  | statement : Stands .statement []
  | expression {site : Site} {expression : Expression} {front back : Tokens} :
      site.Stands front →
      expression.Stands back →
      Stands (.expression site expression) (front ++ back)
  | lineEnd {place : Place} {front back : Tokens} {node : Span → Stmt} :
      place.Stands front →
      Derives .smallStatement back node →
      Stands (.lineEnd place (node (extent back))) (front ++ back)
  | returned {place : Place} {front : Tokens} {opening : Span} :
      place.Stands front →
      Stands (.returned place opening) (front ++ [⟨.keyword .returnKw, opening⟩])
  | colon {owner : Owner} {front : Tokens} :
      owner.Stands front →
      Stands (.colon owner) front
  | suite {owner : Owner} {front : Tokens} {colon : Span} :
      owner.Stands front →
      Stands (.suite owner) (front ++ [⟨.symbol .colon, colon⟩])
  | indent {owner : Owner} {front : Tokens} {colon lineEnd : Span} :
      owner.Stands front →
      Stands (.indent owner) (front ++ [⟨.symbol .colon, colon⟩, ⟨.newline, lineEnd⟩])
  | branchEnd {opening : Span} {branches : List (Expr × List Stmt)} {front : Tokens} :
      Branches opening branches front →
      Stands (.branchEnd opening branches (extent front).stop) front
  | decorated {front : Tokens} {marks : List Unit} :
      Derives (.several .decorator) front marks →
      Stands .decorated front
  | functionName {front : Tokens} {marks : List Unit} {opening : Span} :
      Derives (.many .decorator) front marks →
      Stands (.functionName opening) (front ++ [⟨.keyword .defKw, opening⟩])
  | functionOpen {front back : Tokens} {marks : List Unit} {opening : Span}
      {name : Located String} :
      Derives (.many .decorator) front marks →
      Derives .name back name →
      Stands (.functionOpen opening name) (front ++ ⟨.keyword .defKw, opening⟩ :: back)
  | parameter {header : Header} {front : Tokens} :
      header.Opens front →
      Stands (.parameter header) front
  | parameterName {header : Header} {front back : Tokens} {name : Located String} :
      header.Opens front →
      Derives .name back name →
      Stands (.parameterName header name) (front ++ back)
  | signature {header : Header} {front : Tokens} :
      header.Closes front →
      Stands (.signature header) front
  | className {front : Tokens} {marks : List Unit} {opening : Span} :
      Derives (.many .decorator) front marks →
      Stands (.className opening) (front ++ [⟨.keyword .classKw, opening⟩])
  | classOpen {front back : Tokens} {marks : List Unit} {opening : Span}
      {name : Located String} :
      Derives (.many .decorator) front marks →
      Derives .name back name →
      Stands (.classOpen opening name) (front ++ ⟨.keyword .classKw, opening⟩ :: back)
  | base {opening : Span} {name : Located String} {bases : List Expr} {front : Tokens} :
      BasesOpen opening name bases front →
      Stands (.base opening name bases) front
  | firstTarget {opening : Span} : Stands (.target opening []) [⟨.keyword .forKw, opening⟩]
  | nextTarget {opening comma : Span} {front : Tokens} {targets : List (Located String)} :
      Derives .targets front targets →
      Stands (.target opening targets)
        (⟨.keyword .forKw, opening⟩ :: front ++ [⟨.symbol .comma, comma⟩])
  | targetEnd {opening : Span} {front : Tokens} {targets : List (Located String)} :
      Derives .targets front targets →
      Stands (.targetEnd opening targets) (⟨.keyword .forKw, opening⟩ :: front)

/-- The complete statements and the open blocks, innermost first, stand for the tokens. -/
inductive Frame (items : List Stmt) : List Block → Tokens → Prop
  | file {tokens : Tokens} :
      Derives (.many .statement) tokens items →
      Frame items [] tokens
  | block {owner : Owner} {inner : List Stmt} {outer : List Block} {front middle back : Tokens}
      {colon lineEnd indent : Span} :
      Frame items outer front →
      owner.Stands middle →
      Derives (.many .statement) back inner →
      Frame items (⟨owner, inner⟩ :: outer)
        (front ++ (middle ++
          [⟨.symbol .colon, colon⟩, ⟨.newline, lineEnd⟩, ⟨.indent, indent⟩] ++ back))

/-- The state of the reader stands for the tokens. -/
def Parser.Stands (parser : Parser) (tokens : Tokens) : Prop :=
  ∃ front back, tokens = front ++ back ∧ Frame parser.items parser.blocks front ∧
    parser.mode.Stands back

/-! ## Completing statements -/

namespace Grammar

private theorem Derives.suite_ne_nil {tokens : Tokens} {body : List Stmt}
    (derivation : Derives .suite tokens body) : tokens ≠ [] := by
  cases derivation with
  | block => simp
  | sameLine simple =>
      cases simple
      simp

theorem Derives.several_of_many {phrase : Phrase} {tokens : Tokens} {values : List phrase.Value}
    (many : Derives (.many phrase) tokens values) (nonempty : values ≠ []) :
    Derives (.several phrase) tokens values := by
  cases many with
  | nothing => exact absurd rfl nonempty
  | another earlier last => exact .several earlier last

theorem Derives.many_of_several {phrase : Phrase} {tokens : Tokens} {values : List phrase.Value}
    (several : Derives (.several phrase) tokens values) : Derives (.many phrase) tokens values := by
  cases several with
  | several earlier last => exact .another earlier last

private theorem Derives.function_statement {front back : Tokens} {marks : List Unit}
    {node : Span → Stmt}
    (decorators : Derives (.many .decorator) front marks) (function : Derives .function back node) :
    Derives .statement (front ++ back) (node (extent back)) := by
  cases decorators with
  | nothing => exact .compound (.plainFunction function)
  | another earlier last => exact .compound (.decoratedFunction (.several earlier last) function)

private theorem Derives.class_statement {front back : Tokens} {marks : List Unit}
    {node : Span → Stmt}
    (decorators : Derives (.many .decorator) front marks) (classDef : Derives .classDef back node) :
    Derives .statement (front ++ back) (node (extent back)) := by
  cases decorators with
  | nothing => exact .compound (.plainClass classDef)
  | another earlier last => exact .compound (.decoratedClass (.several earlier last) classDef)

theorem Derives.targets_append {front : Tokens} {targets : List (Located String)}
    {text : String} {comma span : Span} (derivation : Derives .targets front targets) :
    Derives .targets (front ++ [⟨.symbol .comma, comma⟩, ⟨.name text, span⟩])
      (targets ++ [⟨text, span⟩]) := by
  cases derivation with
  | targets first others =>
      rw [List.append_assoc]
      exact .targets first (.another others (.after .name))

end Grammar

namespace Header.Opens

variable {header : Header} {front back : Tokens} {span : Span}

theorem next {param : Param} (opens : header.Opens front)
    (parameter : Derives .parameter back param) :
    Header.Opens { header with params := header.params ++ [param] }
      (front ++ back ++ [⟨.symbol .comma, span⟩]) := by
  obtain ⟨marked, named, earlier⟩ := opens
  rw [List.append_assoc, List.append_assoc]
  exact .mk marked named (.another earlier (.before parameter))

/-- The parenthesis ends the parameters, with a last one before it or not. -/
theorem close {last : Option Param} (opens : header.Opens front)
    (parameter : Derives (.optional .parameter) back last) :
    Header.Closes { header with params := header.params ++ last.toList }
      (front ++ back ++ [⟨.symbol .rightParen, span⟩]) := by
  obtain ⟨marked, named, earlier⟩ := opens
  rw [List.append_assoc _ _ back]
  exact .mk marked named (.listed earlier parameter)

end Header.Opens

namespace BasesOpen

variable {opening span : Span} {name : Located String} {bases : List Expr} {front back : Tokens}

theorem next {base : Expr} (opens : BasesOpen opening name bases front)
    (derivation : Derives (.expression .test) back base) :
    BasesOpen opening name (bases ++ [base]) (front ++ back ++ [⟨.symbol .comma, span⟩]) := by
  obtain ⟨marked, named, earlier⟩ := opens
  rw [List.append_assoc, List.append_assoc]
  exact .mk marked named (.another earlier (.before derivation))

/-- The parenthesis ends the bases of the class. -/
theorem close {last : Option Expr} (opens : BasesOpen opening name bases front)
    (derivation : Derives (.optional (.expression .test)) back last) :
    (Owner.classDef opening name (bases ++ last.toList)).Stands
      (front ++ back ++ [⟨.symbol .rightParen, span⟩]) := by
  obtain @⟨decorators, nameTokens, inside, marks, left, _, marked, named, earlier⟩ := opens
  have listed : Derives (.optional (.after (.symbol .leftParen)
      (.before (.listed (.expression .test)) (.symbol .rightParen))))
      (⟨.symbol .leftParen, left⟩ :: (inside ++ back ++ [⟨.symbol .rightParen, span⟩]))
      (some (bases ++ last.toList)) :=
    .present (.after (.before (.listed earlier derivation)))
  rw [List.append_assoc, List.append_assoc _ _ (back ++ _), List.cons_append,
    ← List.append_assoc inside]
  exact .classDef marked named listed

end BasesOpen

namespace Branches

variable {opening : Span} {branches : List (Expr × List Stmt)} {front back : Tokens}

private theorem next {branch : Expr × List Stmt} (stands : Branches opening branches front)
    (clause : Derives .elifClause back branch) :
    Branches opening (branches ++ [branch]) (front ++ back) := by
  obtain ⟨test, first, others⟩ := stands
  rw [List.append_assoc]
  exact .mk test first (.another others clause)

private theorem statement {otherwise : Option (List Stmt)}
    (stands : Branches opening branches front)
    (last : Derives (.optional .elseClause) back otherwise) :
    Derives .statement (front ++ back)
      (.choice ⟨opening.start, (extent (front ++ back)).stop⟩ (chain branches otherwise)) := by
  obtain ⟨test, first, others⟩ := stands
  exact .compound (.choiceStatement (.choice test first others last))

end Branches

/-- A suite completes the branch of the condition before it. -/
theorem Branching.close {opening colon : Span} {branches : List (Expr × List Stmt)}
    {condition : Expr} {body : List Stmt} {front test back : Tokens}
    (stands : Branching opening branches front)
    (testDerives : Derives (.expression .test) test condition)
    (suite : Derives .suite back body) :
    Branches opening (branches ++ [(condition, body)])
      (front ++ test ++ ⟨.symbol .colon, colon⟩ :: back) := by
  cases stands with
  | first =>
      have alone : Branches opening [(condition, body)]
          (⟨.keyword .ifKw, opening⟩ :: test ++ ⟨.symbol .colon, colon⟩ :: back ++ []) :=
        .mk testDerives suite .nothing
      rw [List.append_nil] at alone
      exact alone
  | @later _ earlier span branches =>
      rw [List.append_assoc earlier, List.append_assoc earlier]
      exact branches.next (.elifClause testDerives suite)

theorem Expression.Stands.nil : Expression.Stands {} [] :=
  ⟨[], [], rfl, ⟨[], [], rfl, .nil, .nil⟩, .wanted⟩

/-- An expression is due. -/
theorem Mode.Stands.begins {site : Site} {tokens : Tokens} (stands : site.Stands tokens) :
    Mode.Stands (.expression site {}) tokens := by
  rw [← List.append_nil tokens]
  exact .expression stands .nil

theorem Parser.derives_assignment {token : Token} {op : Assignment} {span : Span}
    (isAssignment : Parser.assignment? token = some op) :
    Derives .assignment [⟨token, span⟩] op := by
  unfold Parser.assignment? at isAssignment
  split at isAssignment <;> cases isAssignment <;> constructor

namespace Frame

variable {parser : Parser} {front middle back : Tokens} {stmt : Stmt} {owner : Owner}
  {body : List Stmt} {colon : Span}

/-- A statement is added to the innermost block. -/
theorem append (frame : Frame parser.items parser.blocks front)
    (derivation : Derives .statement back stmt) :
    Frame (parser.append stmt).items (parser.append stmt).blocks (front ++ back) := by
  obtain ⟨items, blocks, mode⟩ := parser
  cases frame with
  | file statements => exact .file (.another statements derivation)
  | block outer stands inner =>
      rw [List.append_assoc, List.append_assoc]
      exact .block outer stands (.another inner derivation)

theorem stands_append (frame : Frame parser.items parser.blocks front)
    (derivation : Derives .statement back stmt) : (parser.append stmt).Stands (front ++ back) := by
  refine ⟨front ++ back, [], (List.append_nil _).symm, frame.append derivation, ?_⟩
  rw [Parser.mode_append]
  exact .statement

/-- A suite completes its owner, or a branch of a choice that more branches may follow. -/
theorem closeSuite (frame : Frame parser.items parser.blocks front) (stands : owner.Stands middle)
    (suite : Derives .suite back body) :
    (parser.closeSuite owner body (extent back).stop).Stands
      (front ++ (middle ++ ⟨.symbol .colon, colon⟩ :: back)) := by
  have nonempty : back ≠ [] := suite.suite_ne_nil
  cases stands with
  | @function header returns closed arrow closes returnsDerive =>
      obtain @⟨decorators, nameTokens, inside, marks, opening, left, right, name, params, marked,
        named, listed⟩ := closes
      have definition : Derives .function
          (⟨.keyword .defKw, opening⟩ :: nameTokens ++ ⟨.symbol .leftParen, left⟩ :: inside ++
            ⟨.symbol .rightParen, right⟩ :: arrow ++ ⟨.symbol .colon, colon⟩ :: back)
          (Stmt.function · name params returns body) :=
        .function named listed returnsDerive suite
      have statement := Derives.function_statement marked definition
      rw [extent_infixed (by simp) nonempty] at statement
      have stands := frame.stands_append statement
      simp only [List.append_assoc, List.cons_append, List.nil_append] at stands ⊢
      exact stands
  | @classDef decorators nameTokens inside marks opening name bases marked named based =>
      have definition : Derives .classDef
          (⟨.keyword .classKw, opening⟩ :: nameTokens ++ inside ++ ⟨.symbol .colon, colon⟩ :: back)
          (Stmt.classDef · name (bases.getD []) body) :=
        .classDef named based suite
      have statement := Derives.class_statement marked definition
      rw [extent_infixed (by simp) nonempty] at statement
      have stands := frame.stands_append statement
      simp only [List.append_assoc, List.cons_append] at stands ⊢
      exact stands
  | @branch opening branches condition head test branching testDerives =>
      have closed : Branches opening (branches ++ [(condition, body)])
          (head ++ test ++ ⟨.symbol .colon, colon⟩ :: back) :=
        branching.close testDerives suite
      have isStop := stop_extent_append (head ++ test ++ [⟨.symbol .colon, colon⟩]) nonempty
      rw [List.append_assoc, List.singleton_append] at isStop
      rw [← isStop]
      exact ⟨_, _, rfl, frame, .branchEnd closed⟩
  | @otherwise opening span branches head stands =>
      have clause : Derives .elseClause
          (⟨.keyword .elseKw, span⟩ :: ⟨.symbol .colon, colon⟩ :: back) body :=
        .elseClause suite
      have statement := stands.statement (.present clause)
      have isStop := stop_extent_append
        (head ++ [⟨.keyword .elseKw, span⟩, ⟨.symbol .colon, colon⟩]) nonempty
      rw [List.append_assoc] at isStop ⊢
      rw [← isStop, Parser.closeSuite, show Chain.otherwise body = chain [] (some body) from rfl,
        chainOf_eq_chain]
      exact frame.stands_append statement
  | @whileLoop opening test condition testDerives =>
      have loop : Derives .whileLoop
          (⟨.keyword .whileKw, opening⟩ :: test ++ ⟨.symbol .colon, colon⟩ :: back)
          (Stmt.whileLoop · condition body) :=
        .whileLoop testDerives suite
      have statement := Derives.compound (.whileStatement loop)
      rw [extent_infixed (by simp) nonempty] at statement
      exact frame.stands_append statement
  | @forEach opening inside head test targets iterable targetsDerive testDerives =>
      have loop : Derives .forEach
          (⟨.keyword .forKw, opening⟩ :: head ++ ⟨.keyword .inKw, inside⟩ :: test ++
            ⟨.symbol .colon, colon⟩ :: back)
          (Stmt.forEach · targets iterable body) :=
        .forEach targetsDerive testDerives suite
      have statement := Derives.compound (.forStatement loop)
      rw [extent_infixed (by simp) nonempty] at statement
      exact frame.stands_append statement

/-- The line end completes a simple statement, and its owner if it is the whole suite. -/
theorem endLine {place : Place} {node : Span → Stmt} {lineEnd : Span}
    (frame : Frame parser.items parser.blocks front) (stands : place.Stands middle)
    (small : Derives .smallStatement back node) :
    (parser.endLine place (node (extent back)) lineEnd).Stands
      (front ++ (middle ++ back) ++ [⟨.newline, lineEnd⟩]) := by
  have simple : Derives .simpleStatement (back ++ [⟨.newline, lineEnd⟩]) (node (extent back)) :=
    .line small
  rw [List.append_assoc, List.append_assoc]
  cases stands with
  | line => exact frame.stands_append (.simple simple)
  | @suite owner head colon owned =>
      have isStop := stop_extent_append back (List.cons_ne_nil ⟨.newline, lineEnd⟩ [])
      rw [extent_single] at isStop
      rw [Parser.endLine, ← isStop, List.append_assoc]
      exact frame.closeSuite owned (.sameLine simple)

theorem endChoice {opening : Span} {branches : List (Expr × List Stmt)}
    (frame : Frame parser.items parser.blocks front) (stands : Branches opening branches back) :
    Frame (parser.endChoice opening branches (extent back).stop).items
      (parser.endChoice opening branches (extent back).stop).blocks (front ++ back) := by
  have statement := stands.statement .absent
  rw [List.append_nil] at statement
  rw [Parser.endChoice, show Chain.done = chain [] none from rfl, chainOf_eq_chain]
  exact frame.append statement

end Frame

end Rulebook
