import Rulebook.Proofs.Grammar.Acceptance
import Rulebook.Proofs.Token.Condition

/-!
# Conditions read back from their text

The tokens in the text of a condition are those that the grammar derives the condition from: the
parentheses that writing puts around an operand are those that the levels of expressions ask for,
and a junction, which is written without parentheses and derived from the left, is joined again
part by part. So a condition that is written into a program is read from it as it was, provided
that it is flat and that its names and constants can be written at all.
-/

namespace Rulebook

open Grammar

namespace Grammar

theorem exists_token_cons {located : Tokens} {token : Token} {rest : List Token}
    (nodes : located.map Located.node = token :: rest) :
    ∃ span others, located = ⟨token, span⟩ :: others ∧ others.map Located.node = rest := by
  rcases List.map_eq_cons_iff.mp nodes with ⟨first, others, isLocated, isToken, isRest⟩
  refine ⟨first.span, others, ?_, isRest⟩
  rw [isLocated, ← isToken]

private theorem exists_token {located : Tokens} {token : Token}
    (nodes : located.map Located.node = [token]) : ∃ span, located = [⟨token, span⟩] := by
  rcases exists_token_cons nodes with ⟨span, others, isLocated, noMore⟩
  rw [List.map_eq_nil_iff] at noMore
  exact ⟨span, by rw [isLocated, noMore]⟩

/-- An atom of one token may stand wherever that token does. -/
theorem derives_atom {token : Token} {node : Span → Expr}
    (form : ∀ span, Derives (.form .atom) [⟨token, span⟩] node) {located : Tokens}
    (nodes : located.map Located.node = [token]) :
    ∃ span, Derives (.expression .atom) located (node span) := by
  rcases exists_token nodes with ⟨span, isLocated⟩
  rw [isLocated]
  exact ⟨_, .formed (form span)⟩

/-- A constant is an expression that needs no parentheses beside a relation. -/
theorem derives_value {value : Value} (writable : value.Writable) {located : Tokens}
    (nodes : located.map Located.node = value.tokens) :
    ∃ expr, Derives (.expression .arith) located expr ∧ expr.constant? = some value := by
  match value with
  | .none =>
      rcases derives_atom (fun _ => .none) nodes with ⟨span, derivation⟩
      exact ⟨_, derivation.loosen (by decide), rfl⟩
  | .bool true =>
      rcases derives_atom (fun _ => .true) nodes with ⟨span, derivation⟩
      exact ⟨_, derivation.loosen (by decide), rfl⟩
  | .bool false =>
      rcases derives_atom (fun _ => .false) nodes with ⟨span, derivation⟩
      exact ⟨_, derivation.loosen (by decide), rfl⟩
  | .int number =>
      rw [Value.tokens] at nodes
      by_cases negative : number.toInt < 0
      · rw [if_pos negative] at nodes
        rcases exists_token_cons nodes with ⟨sign, others, isLocated, isRest⟩
        rcases derives_atom (fun _ => .int) isRest with ⟨span, derivation⟩
        have operand : Derives (.expression .factor) others (.int span (-number)) :=
          derivation.loosen (by decide)
        have restored : Text.int64? (-(-number).toInt) = some number := by
          rw [Text.int64?_eq_some_iff, toInt_neg_of_ne_least writable]
          omega
        rw [isLocated]
        refine ⟨_, (Derives.formed (.negative operand)).loosen (by decide), ?_⟩
        rw [Expr.constant?, restored]
        rfl
      · rw [if_neg negative] at nodes
        rcases derives_atom (fun _ => .int) nodes with ⟨span, derivation⟩
        exact ⟨_, derivation.loosen (by decide), rfl⟩
  | .string text =>
      have single : ∀ span, Derives (.several .string) [⟨.string text, span⟩] [text] :=
        fun _ => .several .nothing .string
      rcases derives_atom (fun span => .strings (single span)) nodes with ⟨span, derivation⟩
      refine ⟨_, derivation.loosen (by decide), ?_⟩
      simp [Expr.constant?, String.join]

end Grammar

/-- The relation of the source that a comparison is written with. -/
def Comparator.relation : Comparator → Relation
  | .lt => .lt
  | .le => .le
  | .gt => .gt
  | .ge => .ge
  | .eq => .eq
  | .ne => .ne

namespace Junction

def connective : Junction → Connective
  | .and => .and
  | .or => .or

/-- The kind of expressions that a junction is derived as. Its operands are of the next tighter
one. -/
def grade : Junction → Level
  | .or => .orTest
  | .and => .andTest

private theorem derives_connective
    (kind : Junction) (span : Span) {front back : Tokens} {left right : Expr}
    (first : Derives (.expression kind.grade) front left)
    (second : Derives (.expression kind.grade.tighter) back right) :
    ∃ whole, Derives (.expression kind.grade) (front ++ ⟨.keyword kind.word, span⟩ :: back)
      (.connective whole kind.connective left right) := by
  cases kind with
  | and => exact ⟨_, .formed (.and first second)⟩
  | or => exact ⟨_, .formed (.or first second)⟩

end Junction

namespace Condition

/-- The kind of expressions that a condition is derived as. -/
def grade : Condition → Level
  | .junction kind _ => kind.grade
  | .not _ => .notTest
  | .literal _ | .var _ | .comparison _ _ _ | .verbatim _ => .comparison

/-- The tokens form an expression of the kind, and this expression spells the condition. -/
def DerivedFrom (condition : Condition) (level : Level) (tokens : List Token) : Prop :=
  ∀ located : Tokens, located.map Located.node = tokens →
    ∃ expr, Derives (.expression level) located expr ∧ ∀ source, ofExpr source expr = condition

namespace DerivedFrom

variable {condition : Condition} {tokens : List Token}

private theorem loosen {loose tight : Level} (derived : condition.DerivedFrom tight tokens)
    (looser : loose.rank ≤ tight.rank) : condition.DerivedFrom loose tokens := by
  intro located nodes
  rcases derived located nodes with ⟨expr, derivation, means⟩
  exact ⟨expr, derivation.loosen looser, means⟩

private theorem enclosed (derived : condition.DerivedFrom .test tokens) :
    condition.DerivedFrom .atom (.symbol .leftParen :: (tokens ++ [.symbol .rightParen])) := by
  intro located nodes
  rcases exists_token_cons nodes with ⟨opening, others, isLocated, isRest⟩
  rcases List.map_eq_append_iff.mp isRest with ⟨inside, last, isOthers, isInside, isLast⟩
  rcases exists_token isLast with ⟨closing, isClosing⟩
  rcases derived inside isInside with ⟨expr, derivation, means⟩
  rw [isLocated, isOthers, isClosing]
  exact ⟨expr, .group derivation, means⟩

end DerivedFrom

private theorem rank_le_of_level_lt {kind : Junction} {condition : Condition}
    (writable : condition.WritableAtTop) (tight : kind.level < condition.level) :
    kind.grade.tighter.rank ≤ condition.grade.rank := by
  have belowNot : kind.grade.tighter.rank ≤ Level.notTest.rank := by cases kind <;> decide
  have belowComparison : Level.notTest.rank ≤ Level.comparison.rank := by decide
  cases condition with
  | verbatim text => exact writable.elim
  | junction inner parts =>
      have below : kind.level < inner.level → kind.grade.tighter.rank ≤ inner.grade.rank := by
        cases kind <;> cases inner <;> decide
      exact below tight
  | not operand => exact belowNot
  | literal | var | comparison => exact Nat.le_trans belowNot belowComparison

/-- A part is enclosed when it is written unless it may stand in the junction as it is. -/
theorem DerivedFrom.operand {condition : Condition} (kind : Junction)
    (writable : condition.WritableAtTop)
    (derived : condition.DerivedFrom condition.grade condition.tokens) :
    condition.DerivedFrom kind.grade.tighter
      (encloseTokens condition.level kind.level condition.tokens) := by
  rw [encloseTokens]
  by_cases loose : condition.level ≤ kind.level
  · rw [if_pos loose]
    have atTest : condition.DerivedFrom .test condition.tokens :=
      derived.loosen (by cases condition.grade <;> decide)
    exact atTest.enclosed.loosen (by cases kind <;> decide)
  · rw [if_neg loose]
    exact derived.loosen (rank_le_of_level_lt writable (Nat.lt_of_not_le loose))

private theorem derived_comparison {name : String} {op : Comparator} {constant : Value}
    (writable : constant.Writable) :
    (comparison name op constant).DerivedFrom .comparison
      (comparison name op constant).tokens := by
  intro located nodes
  rw [tokens] at nodes
  rcases exists_token_cons nodes with ⟨nameSpan, others, isLocated, isOthers⟩
  rcases exists_token_cons isOthers with ⟨markSpan, rest, isRest, isValue⟩
  rcases derives_value writable isValue with ⟨right, derivation, isConstant⟩
  have left : Derives (.expression .arith) [⟨.name name, nameSpan⟩] (.name _ name) :=
    (Derives.formed .identifier).loosen (by decide)
  have relation : Derives .relation [⟨.symbol op.mark, markSpan⟩] op.relation := by
    cases op with
    | lt => exact .less
    | le => exact .lessEqual
    | gt => exact .greater
    | ge => exact .greaterEqual
    | eq => exact .equal
    | ne => exact .notEqual
  have links : Derives (.several .link) ([] ++ ([⟨.symbol op.mark, markSpan⟩] ++ rest))
      ([] ++ [(op.relation, right)]) := .several .nothing (.link relation derivation)
  rw [isLocated, isRest]
  refine ⟨_, .formed (.comparison left links), ?_⟩
  intro source
  have isLink : ∀ span, ofLink? (.name span name) op.relation right =
      some (.comparison name op constant) := by
    intro span
    have compares : op.relation.comparator? (.name span name) right = some op := by
      cases op <;> rfl
    rw [ofLink?, compares, isConstant]
  simp [ofExpr, ofLinks?, isLink, join, ofParts, splice]

/-! ## Junctions, part by part -/

private theorem join_ofParts {kind : Junction} {joined : List Condition} {part : Condition}
    (nonempty : joined ≠ []) (joinedApart : ∀ other ∈ joined, other.kind? ≠ some kind)
    (apart : part.kind? ≠ some kind) :
    join kind [ofParts kind joined, part] = ofParts kind (joined ++ [part]) := by
  have spliced : splice kind (ofParts kind joined) = joined := by
    match joined with
    | [] => exact absurd rfl nonempty
    | [single] => exact splice_of_kind_ne (joinedApart single List.mem_cons_self)
    | first :: second :: rest => exact if_pos rfl
  rw [join, List.flatMap_cons, List.flatMap_cons, List.flatMap_nil, List.append_nil, spliced,
    splice_of_kind_ne apart]

section Joining

variable {kind : Junction} {joined : List Condition} {front : Tokens} {left : Expr}

private theorem derives_joined
    (derivation : Derives (.expression kind.grade) front left)
    (means : ∀ source, ofExpr source left = ofParts kind joined)
    (nonempty : joined ≠ []) (joinedApart : ∀ other ∈ joined, other.kind? ≠ some kind)
    {part : Condition} (apart : part.kind? ≠ some kind) {tokens : List Token}
    (operand : part.DerivedFrom kind.grade.tighter tokens)
    (span : Span) {back : Tokens} (nodes : back.map Located.node = tokens) :
    ∃ expr, Derives (.expression kind.grade) (front ++ ⟨.keyword kind.word, span⟩ :: back) expr ∧
      ∀ source, ofExpr source expr = ofParts kind (joined ++ [part]) := by
  rcases operand back nodes with ⟨right, rightDerivation, rightMeans⟩
  rcases kind.derives_connective span derivation rightDerivation with ⟨whole, connected⟩
  refine ⟨_, connected, ?_⟩
  intro source
  have sameKind : ofConnective kind.connective = kind := by cases kind <;> rfl
  rw [ofExpr, sameKind, means, rightMeans, join_ofParts nonempty joinedApart apart]

/-- Further parts are joined from left to right. -/
theorem derives_remaining {parts : List Condition} (remaining : parts ≠ [])
    (apart : ∀ part ∈ parts, part.kind? ≠ some kind)
    (operands : ∀ part ∈ parts, part.DerivedFrom kind.grade.tighter
      (encloseTokens part.level kind.level part.tokens))
    (derivation : Derives (.expression kind.grade) front left)
    (means : ∀ source, ofExpr source left = ofParts kind joined)
    (nonempty : joined ≠ []) (joinedApart : ∀ other ∈ joined, other.kind? ≠ some kind)
    {back : Tokens}
    (nodes : back.map Located.node = .keyword kind.word ::
      List.intercalate [.keyword kind.word] (operandTokens kind.level parts)) :
    ∃ expr, Derives (.expression kind.grade) (front ++ back) expr ∧
      ∀ source, ofExpr source expr = ofParts kind (joined ++ parts) := by
  induction parts generalizing joined front left back with
  | nil => exact absurd rfl remaining
  | cons part rest inductionHypothesis =>
      rw [List.forall_mem_cons] at apart operands
      rcases exists_token_cons nodes with ⟨span, others, isBack, isOthers⟩
      cases rest with
      | nil =>
          rw [isBack]
          rw [operandTokens, operandTokens, List.intercalate_singleton] at isOthers
          exact derives_joined derivation means nonempty joinedApart apart.1 operands.1 span
            isOthers
      | cons next more =>
          rw [operandTokens, operandTokens, List.intercalate_cons_cons, List.append_assoc,
            List.singleton_append, ← operandTokens] at isOthers
          rcases List.map_eq_append_iff.mp isOthers with ⟨inside, later, isSplit, isInside, isLater⟩
          rcases derives_joined derivation means nonempty joinedApart apart.1 operands.1 span
            isInside with ⟨expr, extended, extendedMeans⟩
          have extendedApart : ∀ other ∈ joined ++ [part], other.kind? ≠ some kind := by
            intro other member
            rcases List.mem_append.mp member with before | isPart
            · exact joinedApart other before
            · rw [List.mem_singleton.mp isPart]
              exact apart.1
          rcases inductionHypothesis (List.cons_ne_nil _ _) apart.2 operands.2 extended
            extendedMeans (by simp) extendedApart isLater with ⟨whole, derived, wholeMeans⟩
          refine ⟨whole, ?_, ?_⟩
          · rw [isBack, isSplit]
            simpa using derived
          · simpa using wholeMeans

end Joining

mutual

/-- The tokens of a condition form an expression that spells it. -/
theorem derived (condition : Condition) (flat : condition.Flat) (writable : condition.Writable) :
    condition.DerivedFrom condition.grade condition.tokens := by
  match condition with
  | .literal true =>
      intro located nodes
      rcases derives_atom (fun _ => .true) nodes with ⟨span, derivation⟩
      exact ⟨_, derivation.loosen (by decide), fun _ => rfl⟩
  | .literal false =>
      intro located nodes
      rcases derives_atom (fun _ => .false) nodes with ⟨span, derivation⟩
      exact ⟨_, derivation.loosen (by decide), fun _ => rfl⟩
  | .var name =>
      intro located nodes
      rcases derives_atom (fun _ => .identifier) nodes with ⟨span, derivation⟩
      exact ⟨_, derivation.loosen (by simp [grade, Level.rank]), fun _ => rfl⟩
  | .comparison name op constant => exact derived_comparison writable.atTop.2
  | .junction kind parts =>
      intro located nodes
      have apart := fun part member => ((flat_junction_iff.mp flat).2 part member).1
      have operands := derived_operands kind parts
        (fun part member => ((flat_junction_iff.mp flat).2 part member).2) writable.of_junction
      match parts, (flat_junction_iff.mp flat).1 with
      | first :: second :: rest, _ =>
          rw [List.forall_mem_cons] at apart operands
          rw [tokens, operandTokens, operandTokens, List.intercalate_cons_cons, List.append_assoc,
            List.singleton_append, ← operandTokens] at nodes
          rcases List.map_eq_append_iff.mp nodes with ⟨front, back, isLocated, isFront, isBack⟩
          rcases operands.1 front isFront with ⟨left, derivation, means⟩
          have firstMeans : ∀ source, ofExpr source left = ofParts kind [first] := means
          have single : ∀ other ∈ [first], other.kind? ≠ some kind := by
            rw [List.forall_mem_singleton]
            exact apart.1
          rw [isLocated]
          exact derives_remaining (List.cons_ne_nil _ _) apart.2 operands.2 (.tighter derivation)
            firstMeans (List.cons_ne_nil _ _) single isBack
  | .not operand =>
      intro located nodes
      have operandDerived := derived operand (flat_not_iff.mp flat) writable.of_not
      rcases exists_token_cons nodes with ⟨span, others, isLocated, isOthers⟩
      rcases operandDerived.operand .and writable.of_not.atTop others isOthers with
        ⟨expr, derivation, means⟩
      rw [isLocated]
      exact ⟨_, .formed (.not derivation), fun source => by rw [ofExpr, means]⟩
  | .verbatim text => exact writable.atTop.elim

theorem derived_operands (kind : Junction) (parts : List Condition)
    (flat : ∀ part ∈ parts, part.Flat) (writable : ∀ part ∈ parts, part.Writable) :
    ∀ part ∈ parts, part.DerivedFrom kind.grade.tighter
      (encloseTokens part.level kind.level part.tokens) := by
  match parts with
  | [] => simp
  | part :: rest =>
      rw [List.forall_mem_cons] at flat writable ⊢
      have first := derived part flat.1 writable.1
      exact ⟨first.operand kind writable.1.atTop, derived_operands kind rest flat.2 writable.2⟩

end

/-! ## A program around a condition -/

/-- A function that returns one where the condition holds. -/
def inProgram (condition : Condition) : String :=
  "def f():\n    if " ++ condition.text ++ ":\n        return 1\n"

def programTokens (condition : Condition) : List Token :=
  [.keyword .defKw, .name "f", .symbol .leftParen, .symbol .rightParen, .symbol .colon, .newline,
      .indent, .keyword .ifKw] ++ condition.tokens ++
    [.symbol .colon, .newline, .indent, .keyword .returnKw, .int 1, .newline, .dedent, .dedent]

/-- The lines of the program, each behind its indentation. The texts are compared as literals,
without a look at their bytes. -/
theorem toList_inProgram (condition : Condition) :
    condition.inProgram.toList =
      List.replicate 0 ' ' ++ ("def f():".toList ++ '\n' ::
        (List.replicate 4 ' ' ++ ("if".toList ++ ' ' :: (condition.text.toList ++ [':']) ++ '\n' ::
          (List.replicate 8 ' ' ++ ("return 1".toList ++ '\n' :: []))))) := by
  change ("def f():\n    if " ++ condition.text ++ ":\n        return 1\n").toList = _
  simp [List.replicate]

theorem cutsInto_colon (following : List Char) : CutsInto [':'] [.symbol .colon] following :=
  .symbol rfl (by decide) rfl

private theorem cutsInto_signature (rest : List Char) :
    CutsInto "def f():".toList
      [.keyword .defKw, .name "f", .symbol .leftParen, .symbol .rightParen, .symbol .colon]
      ('\n' :: rest) := by
  have opening : CutsInto ['('] [.symbol .leftParen] ([')', ':'] ++ '\n' :: rest) :=
    .symbol rfl (by decide) rfl
  have closing : CutsInto [')'] [.symbol .rightParen] ([':'] ++ '\n' :: rest) :=
    .symbol rfl (by decide) rfl
  have isIdentifier : IsIdentifier "f" := by decide
  have name := (written_name isIdentifier).cuts (['(', ')', ':'] ++ '\n' :: rest)
    ⟨'(', _, rfl, by decide⟩
  have signature := name.append (opening.append (closing.append (cutsInto_colon _)))
  exact ((written_keyword .defKw).cuts _ (Lexeme.stops_space _)).spaced signature

private theorem written_return : Written "return 1".toList [.keyword .returnKw, .int 1] := by
  have one : Written (Nat.toDigits 10 1) [.int 1] := .number rfl
  exact (written_keyword .returnKw).spaced one

/-- The program has three lines. The layout opens a block before the second and before the third,
and closes both at the end. -/
theorem tokenize_inProgram {condition : Condition} (flat : condition.Flat)
    (writable : condition.Writable) :
    ∃ located, tokenize condition.inProgram = .ok located ∧
      located.map Located.node = condition.programTokens := by
  have written := written_text condition flat writable
  have test : ∀ rest, CutsInto ("if".toList ++ ' ' :: (condition.text.toList ++ [':']))
      ([.keyword .ifKw] ++ (condition.tokens ++ [.symbol .colon])) ('\n' :: rest) := by
    intro rest
    have text := written.cuts ([':'] ++ '\n' :: rest) ⟨':', _, rfl, by decide⟩
    exact ((written_keyword .ifKw).cuts _ (Lexeme.stops_space _)).spaced
      (text.append (cutsInto_colon _))
  have balanced : List.foldl Layout.depthAfter 0
      ([.keyword .ifKw] ++ (condition.tokens ++ [.symbol .colon])) = 0 := by
    rw [List.foldl_append, List.foldl_append, written.balanced]
    rfl
  have result := written_return.cuts ('\n' :: []) ⟨'\n', _, rfl, by decide⟩
  have margin : Layout.startLine? 0 [] = some ([], [0]) := rfl
  have block : Layout.startLine? 4 [0] = some ([.indent], [4, 0]) := rfl
  have inner : Layout.startLine? 8 [4, 0] = some ([.indent], [8, 4, 0]) := rfl
  rcases Layout.advances_line (cutsInto_signature _) rfl margin 0 with
    ⟨firstCut, first, afterFirst, isFirst, firstAdvances, firstNodes⟩
  rcases Layout.advances_line (test _) balanced block afterFirst with
    ⟨secondCut, second, afterSecond, isSecond, secondAdvances, secondNodes⟩
  rcases Layout.advances_line result rfl inner afterSecond with
    ⟨thirdCut, third, afterThird, isThird, thirdAdvances, thirdNodes⟩
  have advances := firstAdvances.append (secondAdvances.append thirdAdvances)
  have cut : pieces condition.inProgram.toList = firstCut ++ (secondCut ++ thirdCut) ++ [] := by
    rw [toList_inProgram, isFirst, isSecond, isThird]
    simp [pieces]
  refine ⟨first ++ (second ++ third) ++ (Layout.atMargin afterThird [8, 4, 0]).finish, ?_, ?_⟩
  · rw [tokenize, cut]
    exact Layout.tokens_of_advances advances rfl
  · simp [firstNodes, secondNodes, thirdNodes, programTokens, Layout.finish, Layout.atMargin]

section Statements

variable {line indent dedent : Span}

private theorem derives_choice {middle : Tokens} {test : Expr}
    (derivation : Derives (.expression .test) middle test)
    (opening colon returnSpan oneSpan lastLine : Span) :
    ∃ whole result value,
      Derives .statement
        (⟨.keyword .ifKw, opening⟩ :: middle ++
          [⟨.symbol .colon, colon⟩, ⟨.newline, line⟩, ⟨.indent, indent⟩,
            ⟨.keyword .returnKw, returnSpan⟩, ⟨.int 1, oneSpan⟩, ⟨.newline, lastLine⟩,
            ⟨.dedent, dedent⟩])
        (.choice whole (.branch test [.returning result (some (.int value 1))] .done)) := by
  have value : Derives (.expression .test) [⟨.int 1, oneSpan⟩] (.int _ 1) :=
    (Derives.formed .int).loosen (by decide)
  have result : Derives .statement
      ([⟨.keyword .returnKw, returnSpan⟩, ⟨.int 1, oneSpan⟩] ++ [⟨.newline, lastLine⟩])
      (.returning _ (some (.int _ 1))) :=
    .simple (.line (.returning (.present value)))
  have body := @Derives.block line indent dedent _ _ (.several .nothing result)
  have choice := @Derives.choice opening colon _ _ _ _ _ _ _ _ derivation body .nothing .absent
  have statement := Derives.compound (.choiceStatement choice)
  rw [List.append_nil, List.append_nil] at statement
  exact ⟨_, _, _, statement⟩

private theorem derives_function {tokens : Tokens} {stmt : Stmt}
    (derivation : Derives .statement tokens stmt) (opening name left right colon : Span) :
    ∃ whole,
      Derives .file
        ([⟨.keyword .defKw, opening⟩, ⟨.name "f", name⟩, ⟨.symbol .leftParen, left⟩,
            ⟨.symbol .rightParen, right⟩, ⟨.symbol .colon, colon⟩, ⟨.newline, line⟩,
            ⟨.indent, indent⟩] ++ tokens ++ [⟨.dedent, dedent⟩])
        ⟨[.function whole ⟨"f", name⟩ [] none [stmt]]⟩ := by
  have body := @Derives.block line indent dedent _ _ (.several .nothing derivation)
  have called : Derives .name [⟨.name "f", name⟩] ⟨"f", name⟩ := .name
  have function := @Derives.function opening left right colon _ _ _ _ _ _ _ _ called
    (.listed .nothing .absent) .absent body
  exact ⟨_, .file (.another .nothing (.compound (.plainFunction function)))⟩

end Statements

/-- The function around a condition, up to the stretches of its parts. -/
theorem derives_inProgram {condition : Condition} (flat : condition.Flat)
    (writable : condition.Writable) {located : Tokens}
    (nodes : located.map Located.node = condition.programTokens) :
    ∃ whole name choice result value test,
      Derives .file located
          ⟨[.function whole ⟨"f", name⟩ [] none
            [.choice choice (.branch test [.returning result (some (.int value 1))] .done)]]⟩ ∧
        ∀ source, ofExpr source test = condition := by
  rcases List.map_eq_append_iff.mp nodes with ⟨front, tail, isLocated, isFront, isTail⟩
  rcases List.map_eq_append_iff.mp isFront with ⟨head, middle, isSplit, isHead, isMiddle⟩
  have atTest : condition.DerivedFrom .test condition.tokens :=
    (derived condition flat writable).loosen (by cases condition.grade <;> decide)
  rcases atTest middle isMiddle with ⟨test, derivation, means⟩
  simp only [List.map_eq_cons_iff, List.map_eq_nil_iff] at isHead isTail
  rcases isHead with ⟨⟨_, defSpan⟩, _, rfl, rfl, ⟨_, nameSpan⟩, _, rfl, rfl, ⟨_, leftSpan⟩, _, rfl,
    rfl, ⟨_, rightSpan⟩, _, rfl, rfl, ⟨_, colonSpan⟩, _, rfl, rfl, ⟨_, lineSpan⟩, _, rfl, rfl,
    ⟨_, indentSpan⟩, _, rfl, rfl, ⟨_, ifSpan⟩, _, rfl, rfl, rfl⟩
  rcases isTail with ⟨⟨_, testSpan⟩, _, rfl, rfl, ⟨_, innerLine⟩, _, rfl, rfl, ⟨_, innerIndent⟩, _,
    rfl, rfl, ⟨_, returnSpan⟩, _, rfl, rfl, ⟨_, oneSpan⟩, _, rfl, rfl, ⟨_, lastLine⟩, _, rfl, rfl,
    ⟨_, innerDedent⟩, _, rfl, rfl, ⟨_, dedentSpan⟩, _, rfl, rfl, rfl⟩
  rcases derives_choice derivation ifSpan testSpan returnSpan oneSpan lastLine with
    ⟨choice, result, value, statement⟩
  rcases derives_function statement defSpan nameSpan leftSpan rightSpan colonSpan with
    ⟨whole, file⟩
  refine ⟨whole, nameSpan, choice, result, value, test, ?_, means⟩
  rw [isLocated, isSplit]
  simpa using file

/-- A flat condition whose names and constants can be written is read back as it was from a
program that tests it. -/
theorem text_reads_back (condition : Condition) (flat : condition.Flat)
    (writable : condition.Writable) :
    ∃ whole name choice result value test,
      Program.ofSource condition.inProgram =
          .ok ⟨[.function whole ⟨"f", name⟩ [] none
            [.choice choice (.branch test [.returning result (some (.int value 1))] .done)]]⟩ ∧
        ofExpr condition.inProgram test = condition := by
  rcases tokenize_inProgram flat writable with ⟨located, tokenized, nodes⟩
  rcases derives_inProgram flat writable nodes with
    ⟨whole, name, choice, result, value, test, derivation, means⟩
  refine ⟨whole, name, choice, result, value, test, ?_, means _⟩
  exact Program.ofSource_eq_ok_iff.mpr ⟨located, tokenized, derivation⟩

/-- A junction in a junction, a negative number and a text that has to be escaped. -/
def nestedSample : Condition :=
  .junction .and
    [.junction .or [.comparison "delay" .lt (.int (-5)), .not (.not (.var "ready"))],
      .not (.junction .or [.comparison "note" .ne (.string "say \"no\"\n"), .literal false])]

theorem text_reads_back_nested :
    nestedSample.text =
        "(delay < -5 or not not ready) and not (note != \"say \\\"no\\\"\\n\" or False)" ∧
      ∃ whole name choice result value test,
        Program.ofSource nestedSample.inProgram =
            .ok ⟨[.function whole ⟨"f", name⟩ [] none
              [.choice choice (.branch test [.returning result (some (.int value 1))] .done)]]⟩ ∧
          ofExpr nestedSample.inProgram test = nestedSample := by
  refine ⟨by decide +kernel, text_reads_back nestedSample ?_ ?_⟩
  · decide +kernel
  · decide +kernel

end Condition

end Rulebook
