import Rulebook.Program.Stmt
import Rulebook.Token.Basic

/-!
# The grammar of programs

The grammar is a relation between the kinds of phrases, the tokens that form a phrase and what the
phrase means. It has one rule for each way of forming a phrase and knows nothing about reading
from left to right. A node carries the stretch from the start of its first token to the end of its
last one; parentheses belong to the stretch of what surrounds them, not to the node inside.
-/

namespace Rulebook.Grammar

abbrev Tokens := List (Located Token)

/-- From the start of the first token to the end of the last. -/
def extent (tokens : Tokens) : Span :=
  ⟨(tokens.head?.map (·.span.start)).getD 0, (tokens.getLast?.map (·.span.stop)).getD 0⟩

/-- The kinds of expressions, from the loosest to the tightest. -/
inductive Level where
  | test | orTest | andTest | notTest | comparison | arith | term | factor | power | primary | atom
deriving DecidableEq

/-- Every expression of the next tighter kind is one of this kind. -/
def Level.tighter : Level → Level
  | .test => .orTest
  | .orTest => .andTest
  | .andTest => .notTest
  | .notTest => .comparison
  | .comparison => .arith
  | .arith => .term
  | .term => .factor
  | .factor => .power
  | .power => .primary
  | .primary => .atom
  | .atom => .atom

inductive Phrase where
  | file
  | statement
  | simpleStatement
  /-- A simple statement without its line end. -/
  | smallStatement
  | assignment
  | compoundStatement
  | decorator
  | function
  | parameter
  | classDef
  | choice
  | elifClause
  | elseClause
  | whileLoop
  | forEach
  | targets
  | suite
  | name
  | expression (level : Level)
  /-- An expression that forms a node of its own, up to the stretch of that node. -/
  | form (level : Level)
  | relation
  /-- A relation and its right side. -/
  | link
  | additive
  | multiplicative
  | argument
  | string
  | optional (phrase : Phrase)
  | many (phrase : Phrase)
  | several (phrase : Phrase)
  /-- Any number of phrases with commas between them, and a comma after the last if one likes. -/
  | listed (phrase : Phrase)
  | after (mark : Token) (phrase : Phrase)
  | before (phrase : Phrase) (mark : Token)

/-- What phrases mean. -/
@[reducible] def Phrase.Value : Phrase → Type
  | .file => Program
  | .statement | .simpleStatement | .compoundStatement => Stmt
  | .smallStatement | .function | .classDef | .choice | .whileLoop | .forEach => Span → Stmt
  | .assignment => Assignment
  | .decorator => Unit
  | .parameter => Param
  | .elifClause => Expr × List Stmt
  | .elseClause | .suite => List Stmt
  | .targets => List (Located String)
  | .name => Located String
  | .expression _ => Expr
  | .form _ => Span → Expr
  | .relation => Relation
  | .link => Relation × Expr
  | .additive | .multiplicative => Arithmetic
  | .argument => Argument
  | .string => String
  | .optional phrase => Option phrase.Value
  | .many phrase | .several phrase | .listed phrase => List phrase.Value
  | .after _ phrase | .before phrase _ => phrase.Value

/-- The branches of a choice with its last alternative, if there is one. -/
def chain : List (Expr × List Stmt) → Option (List Stmt) → Chain
  | [], none => .done
  | [], some body => .otherwise body
  | (condition, body) :: rest, last => .branch condition body (chain rest last)

/-- The tokens form a phrase of the kind, with the meaning. -/
inductive Derives : (phrase : Phrase) → Tokens → phrase.Value → Prop
  -- Repetition.
  | absent {phrase : Phrase} : Derives (.optional phrase) [] none
  | present {phrase : Phrase} {tokens : Tokens} {value : phrase.Value} :
      Derives phrase tokens value →
      Derives (.optional phrase) tokens (some value)
  | nothing {phrase : Phrase} : Derives (.many phrase) [] []
  | another {phrase : Phrase} {front back : Tokens} {values : List phrase.Value}
      {value : phrase.Value} :
      Derives (.many phrase) front values →
      Derives phrase back value →
      Derives (.many phrase) (front ++ back) (values ++ [value])
  | several {phrase : Phrase} {front back : Tokens} {values : List phrase.Value}
      {value : phrase.Value} :
      Derives (.many phrase) front values →
      Derives phrase back value →
      Derives (.several phrase) (front ++ back) (values ++ [value])
  | listed {phrase : Phrase} {front back : Tokens} {values : List phrase.Value}
      {last : Option phrase.Value} :
      Derives (.many (.before phrase (.symbol .comma))) front values →
      Derives (.optional phrase) back last →
      Derives (.listed phrase) (front ++ back) (values ++ last.toList)
  | after {phrase : Phrase} {mark : Token} {span : Span} {tokens : Tokens}
      {value : phrase.Value} :
      Derives phrase tokens value →
      Derives (.after mark phrase) (⟨mark, span⟩ :: tokens) value
  | before {phrase : Phrase} {mark : Token} {span : Span} {tokens : Tokens}
      {value : phrase.Value} :
      Derives phrase tokens value →
      Derives (.before phrase mark) (tokens ++ [⟨mark, span⟩]) value
  -- Statements.
  | file {tokens : Tokens} {items : List Stmt} :
      Derives (.many .statement) tokens items →
      Derives .file tokens ⟨items⟩
  | simple {tokens : Tokens} {stmt : Stmt} :
      Derives .simpleStatement tokens stmt →
      Derives .statement tokens stmt
  | compound {tokens : Tokens} {stmt : Stmt} :
      Derives .compoundStatement tokens stmt →
      Derives .statement tokens stmt
  | line {tokens : Tokens} {node : Span → Stmt} {span : Span} :
      Derives .smallStatement tokens node →
      Derives .simpleStatement (tokens ++ [⟨.newline, span⟩]) (node (extent tokens))
  | returning {span : Span} {tokens : Tokens} {value : Option Expr} :
      Derives (.optional (.expression .test)) tokens value →
      Derives .smallStatement (⟨.keyword .returnKw, span⟩ :: tokens) (Stmt.returning · value)
  | pass {span : Span} : Derives .smallStatement [⟨.keyword .passKw, span⟩] Stmt.pass
  | breaking {span : Span} : Derives .smallStatement [⟨.keyword .breakKw, span⟩] Stmt.breaking
  | continuing {span : Span} :
      Derives .smallStatement [⟨.keyword .continueKw, span⟩] Stmt.continuing
  | expr {tokens : Tokens} {value : Expr} :
      Derives (.expression .test) tokens value →
      Derives .smallStatement tokens (Stmt.expr · value)
  | assign {front middle back : Tokens} {target value : Expr} {op : Assignment} :
      Derives (.expression .test) front target →
      Derives .assignment middle op →
      Derives (.expression .test) back value →
      Derives .smallStatement (front ++ middle ++ back) (Stmt.assign · target op value)
  | set {span : Span} : Derives .assignment [⟨.symbol .assign, span⟩] .set
  | setSum {span : Span} : Derives .assignment [⟨.symbol .plusAssign, span⟩] .add
  | setDifference {span : Span} : Derives .assignment [⟨.symbol .minusAssign, span⟩] .sub
  | setProduct {span : Span} : Derives .assignment [⟨.symbol .starAssign, span⟩] .mul
  | setQuotient {span : Span} : Derives .assignment [⟨.symbol .slashAssign, span⟩] .div
  | plainFunction {tokens : Tokens} {node : Span → Stmt} :
      Derives .function tokens node →
      Derives .compoundStatement tokens (node (extent tokens))
  | decoratedFunction {front back : Tokens} {marks : List Unit} {node : Span → Stmt} :
      Derives (.several .decorator) front marks →
      Derives .function back node →
      Derives .compoundStatement (front ++ back) (node (extent back))
  | plainClass {tokens : Tokens} {node : Span → Stmt} :
      Derives .classDef tokens node →
      Derives .compoundStatement tokens (node (extent tokens))
  | decoratedClass {front back : Tokens} {marks : List Unit} {node : Span → Stmt} :
      Derives (.several .decorator) front marks →
      Derives .classDef back node →
      Derives .compoundStatement (front ++ back) (node (extent back))
  | choiceStatement {tokens : Tokens} {node : Span → Stmt} :
      Derives .choice tokens node →
      Derives .compoundStatement tokens (node (extent tokens))
  | whileStatement {tokens : Tokens} {node : Span → Stmt} :
      Derives .whileLoop tokens node →
      Derives .compoundStatement tokens (node (extent tokens))
  | forStatement {tokens : Tokens} {node : Span → Stmt} :
      Derives .forEach tokens node →
      Derives .compoundStatement tokens (node (extent tokens))
  | decorator {opening closing : Span} {tokens : Tokens} {value : Expr} :
      Derives (.expression .test) tokens value →
      Derives .decorator (⟨.symbol .at, opening⟩ :: tokens ++ [⟨.newline, closing⟩]) ()
  | function {opening left right colon : Span} {name : Located String}
      {nameTokens inside arrow back : Tokens} {params : List Param} {returns : Option Expr}
      {body : List Stmt} :
      Derives .name nameTokens name →
      Derives (.listed .parameter) inside params →
      Derives (.optional (.after (.symbol .arrow) (.expression .test))) arrow returns →
      Derives .suite back body →
      Derives .function
        (⟨.keyword .defKw, opening⟩ :: nameTokens ++ ⟨.symbol .leftParen, left⟩ :: inside ++
          ⟨.symbol .rightParen, right⟩ :: arrow ++ ⟨.symbol .colon, colon⟩ :: back)
        (Stmt.function · name params returns body)
  | parameter {front middle back : Tokens} {name : Located String}
      {typeHint default : Option Expr} :
      Derives .name front name →
      Derives (.optional (.after (.symbol .colon) (.expression .test))) middle typeHint →
      Derives (.optional (.after (.symbol .assign) (.expression .test))) back default →
      Derives .parameter (front ++ middle ++ back) ⟨name, typeHint, default⟩
  | classDef {opening colon : Span} {name : Located String} {nameTokens inside back : Tokens}
      {bases : Option (List Expr)} {body : List Stmt} :
      Derives .name nameTokens name →
      Derives (.optional (.after (.symbol .leftParen)
        (.before (.listed (.expression .test)) (.symbol .rightParen)))) inside bases →
      Derives .suite back body →
      Derives .classDef
        (⟨.keyword .classKw, opening⟩ :: nameTokens ++ inside ++ ⟨.symbol .colon, colon⟩ :: back)
        (Stmt.classDef · name (bases.getD []) body)
  | choice {opening colon : Span} {test first others last : Tokens} {condition : Expr}
      {body : List Stmt} {branches : List (Expr × List Stmt)} {otherwise : Option (List Stmt)} :
      Derives (.expression .test) test condition →
      Derives .suite first body →
      Derives (.many .elifClause) others branches →
      Derives (.optional .elseClause) last otherwise →
      Derives .choice
        (⟨.keyword .ifKw, opening⟩ :: test ++ ⟨.symbol .colon, colon⟩ :: first ++ others ++ last)
        (Stmt.choice · (chain ((condition, body) :: branches) otherwise))
  | elifClause {opening colon : Span} {test back : Tokens} {condition : Expr}
      {body : List Stmt} :
      Derives (.expression .test) test condition →
      Derives .suite back body →
      Derives .elifClause
        (⟨.keyword .elifKw, opening⟩ :: test ++ ⟨.symbol .colon, colon⟩ :: back)
        (condition, body)
  | elseClause {opening colon : Span} {back : Tokens} {body : List Stmt} :
      Derives .suite back body →
      Derives .elseClause
        (⟨.keyword .elseKw, opening⟩ :: ⟨.symbol .colon, colon⟩ :: back) body
  | whileLoop {opening colon : Span} {test back : Tokens} {condition : Expr}
      {body : List Stmt} :
      Derives (.expression .test) test condition →
      Derives .suite back body →
      Derives .whileLoop
        (⟨.keyword .whileKw, opening⟩ :: test ++ ⟨.symbol .colon, colon⟩ :: back)
        (Stmt.whileLoop · condition body)
  | forEach {opening inside colon : Span} {front test back : Tokens}
      {targets : List (Located String)} {iterable : Expr} {body : List Stmt} :
      Derives .targets front targets →
      Derives (.expression .test) test iterable →
      Derives .suite back body →
      Derives .forEach
        (⟨.keyword .forKw, opening⟩ :: front ++ ⟨.keyword .inKw, inside⟩ :: test ++
          ⟨.symbol .colon, colon⟩ :: back)
        (Stmt.forEach · targets iterable body)
  | targets {front back : Tokens} {first : Located String} {others : List (Located String)} :
      Derives .name front first →
      Derives (.many (.after (.symbol .comma) .name)) back others →
      Derives .targets (front ++ back) (first :: others)
  | block {lineEnd indent dedent : Span} {tokens : Tokens} {body : List Stmt} :
      Derives (.several .statement) tokens body →
      Derives .suite
        (⟨.newline, lineEnd⟩ :: ⟨.indent, indent⟩ :: tokens ++ [⟨.dedent, dedent⟩]) body
  | sameLine {tokens : Tokens} {stmt : Stmt} :
      Derives .simpleStatement tokens stmt →
      Derives .suite tokens [stmt]
  | name {text : String} {span : Span} : Derives .name [⟨.name text, span⟩] ⟨text, span⟩
  -- Expressions.
  | tighter {level : Level} {tokens : Tokens} {expr : Expr} :
      Derives (.expression level.tighter) tokens expr →
      Derives (.expression level) tokens expr
  | formed {level : Level} {tokens : Tokens} {node : Span → Expr} :
      Derives (.form level) tokens node →
      Derives (.expression level) tokens (node (extent tokens))
  | conditional {front middle back : Tokens} {body test otherwise : Expr}
      {ifSpan elseSpan : Span} :
      Derives (.expression .orTest) front body →
      Derives (.expression .orTest) middle test →
      Derives (.expression .test) back otherwise →
      Derives (.form .test)
        (front ++ ⟨.keyword .ifKw, ifSpan⟩ :: middle ++ ⟨.keyword .elseKw, elseSpan⟩ :: back)
        (Expr.conditional · body test otherwise)
  | or {front back : Tokens} {left right : Expr} {span : Span} :
      Derives (.expression .orTest) front left →
      Derives (.expression .andTest) back right →
      Derives (.form .orTest) (front ++ ⟨.keyword .orKw, span⟩ :: back)
        (Expr.connective · .or left right)
  | and {front back : Tokens} {left right : Expr} {span : Span} :
      Derives (.expression .andTest) front left →
      Derives (.expression .notTest) back right →
      Derives (.form .andTest) (front ++ ⟨.keyword .andKw, span⟩ :: back)
        (Expr.connective · .and left right)
  | not {tokens : Tokens} {operand : Expr} {span : Span} :
      Derives (.expression .notTest) tokens operand →
      Derives (.form .notTest) (⟨.keyword .notKw, span⟩ :: tokens) (Expr.not · operand)
  | comparison {front back : Tokens} {left : Expr} {links : List (Relation × Expr)} :
      Derives (.expression .arith) front left →
      Derives (.several .link) back links →
      Derives (.form .comparison) (front ++ back) (Expr.compare · left links)
  | link {front back : Tokens} {relation : Relation} {right : Expr} :
      Derives .relation front relation →
      Derives (.expression .arith) back right →
      Derives .link (front ++ back) (relation, right)
  | less {span : Span} : Derives .relation [⟨.symbol .less, span⟩] .lt
  | greater {span : Span} : Derives .relation [⟨.symbol .greater, span⟩] .gt
  | lessEqual {span : Span} : Derives .relation [⟨.symbol .lessEqual, span⟩] .le
  | greaterEqual {span : Span} : Derives .relation [⟨.symbol .greaterEqual, span⟩] .ge
  | equal {span : Span} : Derives .relation [⟨.symbol .equal, span⟩] .eq
  | notEqual {span : Span} : Derives .relation [⟨.symbol .notEqual, span⟩] .ne
  | isIn {span : Span} : Derives .relation [⟨.keyword .inKw, span⟩] .isIn
  | notIn {first second : Span} :
      Derives .relation [⟨.keyword .notKw, first⟩, ⟨.keyword .inKw, second⟩] .notIn
  | same {span : Span} : Derives .relation [⟨.keyword .isKw, span⟩] .same
  | notSame {first second : Span} :
      Derives .relation [⟨.keyword .isKw, first⟩, ⟨.keyword .notKw, second⟩] .notSame
  | sum {front middle back : Tokens} {left right : Expr} {op : Arithmetic} :
      Derives (.expression .arith) front left →
      Derives .additive middle op →
      Derives (.expression .term) back right →
      Derives (.form .arith) (front ++ middle ++ back) (Expr.arithmetic · op left right)
  | plus {span : Span} : Derives .additive [⟨.symbol .plus, span⟩] .add
  | minus {span : Span} : Derives .additive [⟨.symbol .minus, span⟩] .sub
  | product {front middle back : Tokens} {left right : Expr} {op : Arithmetic} :
      Derives (.expression .term) front left →
      Derives .multiplicative middle op →
      Derives (.expression .factor) back right →
      Derives (.form .term) (front ++ middle ++ back) (Expr.arithmetic · op left right)
  | star {span : Span} : Derives .multiplicative [⟨.symbol .star, span⟩] .mul
  | slash {span : Span} : Derives .multiplicative [⟨.symbol .slash, span⟩] .div
  | slashSlash {span : Span} : Derives .multiplicative [⟨.symbol .slashSlash, span⟩] .floorDiv
  | percent {span : Span} : Derives .multiplicative [⟨.symbol .percent, span⟩] .mod
  | negative {tokens : Tokens} {operand : Expr} {span : Span} :
      Derives (.expression .factor) tokens operand →
      Derives (.form .factor) (⟨.symbol .minus, span⟩ :: tokens)
        (Expr.signed · .negative operand)
  | positive {tokens : Tokens} {operand : Expr} {span : Span} :
      Derives (.expression .factor) tokens operand →
      Derives (.form .factor) (⟨.symbol .plus, span⟩ :: tokens)
        (Expr.signed · .positive operand)
  | power {front back : Tokens} {left right : Expr} {span : Span} :
      Derives (.expression .primary) front left →
      Derives (.expression .factor) back right →
      Derives (.form .power) (front ++ ⟨.symbol .starStar, span⟩ :: back)
        (Expr.arithmetic · .pow left right)
  | call {front inside : Tokens} {function : Expr} {arguments : List Argument}
      {opening closing : Span} :
      Derives (.expression .primary) front function →
      Derives (.listed .argument) inside arguments →
      Derives (.form .primary)
        (front ++ ⟨.symbol .leftParen, opening⟩ :: inside ++ [⟨.symbol .rightParen, closing⟩])
        (Expr.call · function arguments)
  | subscript {front inside : Tokens} {container index : Expr} {opening closing : Span} :
      Derives (.expression .primary) front container →
      Derives (.expression .test) inside index →
      Derives (.form .primary)
        (front ++ ⟨.symbol .leftBracket, opening⟩ :: inside ++
          [⟨.symbol .rightBracket, closing⟩])
        (Expr.subscript · container index)
  | field {front : Tokens} {value : Expr} {field : String} {dot span : Span} :
      Derives (.expression .primary) front value →
      Derives (.form .primary) (front ++ [⟨.symbol .dot, dot⟩, ⟨.name field, span⟩])
        (Expr.attribute · value field)
  | positional {tokens : Tokens} {value : Expr} :
      Derives (.expression .test) tokens value →
      Derives .argument tokens (.positional value)
  | keyword {name : String} {tokens : Tokens} {value : Expr} {nameSpan mark : Span} :
      Derives (.expression .test) tokens value →
      Derives .argument (⟨.name name, nameSpan⟩ :: ⟨.symbol .assign, mark⟩ :: tokens)
        (.keyword name value)
  | identifier {text : String} {span : Span} :
      Derives (.form .atom) [⟨.name text, span⟩] (Expr.name · text)
  | int {value : Int64} {span : Span} :
      Derives (.form .atom) [⟨.int value, span⟩] (Expr.int · value)
  | float {value : Number.Binary64} {span : Span} :
      Derives (.form .atom) [⟨.float value, span⟩] (Expr.float · value)
  | strings {tokens : Tokens} {contents : List String} :
      Derives (.several .string) tokens contents →
      Derives (.form .atom) tokens (Expr.string · (String.join contents))
  | string {content : String} {span : Span} : Derives .string [⟨.string content, span⟩] content
  | markedString {written : String} {span : Span} :
      Derives (.form .atom) [⟨.markedString written, span⟩] (Expr.markedString · written)
  | true {span : Span} : Derives (.form .atom) [⟨.keyword .trueKw, span⟩] (Expr.bool · true)
  | false {span : Span} : Derives (.form .atom) [⟨.keyword .falseKw, span⟩] (Expr.bool · false)
  | none {span : Span} : Derives (.form .atom) [⟨.keyword .noneKw, span⟩] Expr.none
  | group {inside : Tokens} {expr : Expr} {opening closing : Span} :
      Derives (.expression .test) inside expr →
      Derives (.expression .atom)
        (⟨.symbol .leftParen, opening⟩ :: inside ++ [⟨.symbol .rightParen, closing⟩]) expr
  | emptyTuple {opening closing : Span} :
      Derives (.form .atom)
        [⟨.symbol .leftParen, opening⟩, ⟨.symbol .rightParen, closing⟩] (Expr.tuple · [])
  | tuple {front back : Tokens} {first : Expr} {others : List Expr}
      {opening comma closing : Span} :
      Derives (.expression .test) front first →
      Derives (.listed (.expression .test)) back others →
      Derives (.form .atom)
        (⟨.symbol .leftParen, opening⟩ :: front ++ ⟨.symbol .comma, comma⟩ :: back ++
          [⟨.symbol .rightParen, closing⟩])
        (Expr.tuple · (first :: others))
  | list {inside : Tokens} {items : List Expr} {opening closing : Span} :
      Derives (.listed (.expression .test)) inside items →
      Derives (.form .atom)
        (⟨.symbol .leftBracket, opening⟩ :: inside ++ [⟨.symbol .rightBracket, closing⟩])
        (Expr.list · items)

end Rulebook.Grammar
