import Rulebook.Program.Expression
import Rulebook.Program.Stmt
import Rulebook.Token.Layout

/-!
# Reading a program token by token

The state of the reader holds the statements read so far, the blocks still open and what the last
token left unfinished. A token that the state does not take is the first at which the tokens read
so far cannot be continued to a program.
-/

namespace Rulebook

/-- The beginning of a function definition. -/
structure Header where
  opening : Span
  name : Located String
  params : List Param

/-- The compound statement that a suite completes. -/
inductive Owner where
  | function (header : Header) (returns : Option Expr)
  | classDef (opening : Span) (name : Located String) (bases : List Expr)
  | branch (opening : Span) (branches : List (Expr × List Stmt)) (condition : Expr)
  | otherwise (opening : Span) (branches : List (Expr × List Stmt))
  | whileLoop (opening : Span) (condition : Expr)
  | forEach (opening : Span) (targets : List (Located String)) (iterable : Expr)

/-- Where a simple statement stands: on a line of its own, or as a suite on the line of its
owner. -/
inductive Place where
  | line
  | suite (owner : Owner)

/-- What an expression is part of, once it is complete. -/
inductive Site where
  | statement (place : Place)
  | assigned (place : Place) (target : Operand) (op : Assignment)
  | returned (place : Place) (opening : Span)
  | decorator
  | condition (opening : Span) (branches : List (Expr × List Stmt))
  | loop (opening : Span)
  | iterable (opening : Span) (targets : List (Located String))
  | typeHint (header : Header) (name : Located String)
  | default (header : Header) (name : Located String) (typeHint : Option Expr)
  | returns (header : Header)
  | base (opening : Span) (name : Located String) (bases : List Expr)

/-- What the last token left unfinished. -/
inductive Mode where
  /-- A statement may start. -/
  | statement
  | expression (site : Site) (expression : Expression)
  /-- A complete simple statement before its line end. -/
  | lineEnd (place : Place) (stmt : Stmt)
  /-- After `return`. -/
  | returned (place : Place) (opening : Span)
  /-- Before the colon of the owner. -/
  | colon (owner : Owner)
  /-- After the colon of the owner. -/
  | suite (owner : Owner)
  /-- After the line end that follows the colon of the owner. -/
  | indent (owner : Owner)
  /-- After a suite of a choice, which more branches may follow. -/
  | branchEnd (opening : Span) (branches : List (Expr × List Stmt)) (stop : Nat)
  /-- After the line of a decorator. -/
  | decorated
  | functionName (opening : Span)
  | functionOpen (opening : Span) (name : Located String)
  /-- Before a parameter or the end of the parameters. -/
  | parameter (header : Header)
  /-- After the name of a parameter. -/
  | parameterName (header : Header) (name : Located String)
  /-- After the parameters. -/
  | signature (header : Header)
  | className (opening : Span)
  | classOpen (opening : Span) (name : Located String)
  /-- Before a base class or the end of the bases. -/
  | base (opening : Span) (name : Located String) (bases : List Expr)
  /-- Before a loop variable. -/
  | target (opening : Span) (targets : List (Located String))
  /-- After a loop variable. -/
  | targetEnd (opening : Span) (targets : List (Located String))

/-- A block whose end is still to come. -/
structure Block where
  owner : Owner
  items : List Stmt

structure Parser where
  /-- The complete statements of the file. -/
  items : List Stmt := []
  /-- The open blocks, innermost first. -/
  blocks : List Block := []
  mode : Mode := .statement

namespace Parser

/-- Goes on in another mode. -/
def goOn (parser : Parser) (mode : Mode) : Parser := { parser with mode }

/-- Adds a complete statement to the innermost open block. -/
def append (parser : Parser) (stmt : Stmt) : Parser :=
  match parser.blocks with
  | [] => { parser with items := parser.items ++ [stmt], mode := .statement }
  | block :: outer =>
      { parser with
        blocks := { block with items := block.items ++ [stmt] } :: outer, mode := .statement }

/-- The choice with the given branches and last alternative. -/
def chainOf (branches : List (Expr × List Stmt)) (last : Chain) : Chain :=
  branches.foldr (fun (condition, body) rest => .branch condition body rest) last

/-- Completes the owner of a suite that ends at `stop`. -/
def closeSuite (parser : Parser) (owner : Owner) (body : List Stmt) (stop : Nat) : Parser :=
  match owner with
  | .function header returns =>
      parser.append
        (.function ⟨header.opening.start, stop⟩ header.name header.params returns body)
  | .classDef opening name bases =>
      parser.append (.classDef ⟨opening.start, stop⟩ name bases body)
  | .branch opening branches condition =>
      parser.goOn (.branchEnd opening (branches ++ [(condition, body)]) stop)
  | .otherwise opening branches =>
      parser.append (.choice ⟨opening.start, stop⟩ (chainOf branches (.otherwise body)))
  | .whileLoop opening condition =>
      parser.append (.whileLoop ⟨opening.start, stop⟩ condition body)
  | .forEach opening targets iterable =>
      parser.append (.forEach ⟨opening.start, stop⟩ targets iterable body)

/-- Completes a simple statement at its line end. -/
def endLine (parser : Parser) (place : Place) (stmt : Stmt) (lineEnd : Span) : Parser :=
  match place with
  | .line => parser.append stmt
  | .suite owner => parser.closeSuite owner [stmt] lineEnd.stop

/-- Completes a choice that has no last alternative. -/
def endChoice (parser : Parser) (opening : Span) (branches : List (Expr × List Stmt))
    (stop : Nat) : Parser :=
  parser.append (.choice ⟨opening.start, stop⟩ (chainOf branches .done))

/-- Starts an expression with its first token. -/
def startExpression (parser : Parser) (site : Site) (token : Located Token) : Option Parser :=
  match Expression.feed {} token with
  | some (.more expression) => some (parser.goOn (.expression site expression))
  | _ => none

/-- The first token of a simple statement. -/
def startSimple (parser : Parser) (place : Place) (token : Located Token) : Option Parser :=
  match token.node with
  | .keyword .returnKw => some (parser.goOn (.returned place token.span))
  | .keyword .passKw => some (parser.goOn (.lineEnd place (.pass token.span)))
  | .keyword .breakKw => some (parser.goOn (.lineEnd place (.breaking token.span)))
  | .keyword .continueKw => some (parser.goOn (.lineEnd place (.continuing token.span)))
  | _ => parser.startExpression (.statement place) token

/-- The first token of a statement, or the end of a block that is not empty. -/
def startStatement (parser : Parser) (token : Located Token) : Option Parser :=
  match token.node with
  | .keyword .defKw => some (parser.goOn (.functionName token.span))
  | .keyword .classKw => some (parser.goOn (.className token.span))
  | .keyword .ifKw => some (parser.goOn (.expression (.condition token.span []) {}))
  | .keyword .whileKw => some (parser.goOn (.expression (.loop token.span) {}))
  | .keyword .forKw => some (parser.goOn (.target token.span []))
  | .symbol .at => some (parser.goOn (.expression .decorator {}))
  | .dedent =>
      match parser.blocks with
      | ⟨owner, first :: rest⟩ :: outer =>
          some ({ parser with blocks := outer }.closeSuite owner (first :: rest)
            token.span.stop)
      | _ => none
  | _ => parser.startSimple .line token

/-- A mark of assignment. -/
def assignment? : Token → Option Assignment
  | .symbol .assign => some .set
  | .symbol .plusAssign => some .add
  | .symbol .minusAssign => some .sub
  | .symbol .starAssign => some .mul
  | .symbol .slashAssign => some .div
  | _ => none

/-- A parameter is complete, and a comma or the end of the parameters follows. -/
def endParam (parser : Parser) (header : Header) (param : Param) (token : Token) :
    Option Parser :=
  let header := { header with params := header.params ++ [param] }
  match token with
  | .symbol .comma => some (parser.goOn (.parameter header))
  | .symbol .rightParen => some (parser.goOn (.signature header))
  | _ => none

/-- The token after a complete expression. -/
def endExpression (parser : Parser) (site : Site) (value : Operand) (token : Located Token) :
    Option Parser :=
  match site with
  | .statement place =>
      match assignment? token.node with
      | some op => some (parser.goOn (.expression (.assigned place value op) {}))
      | none =>
          if token.node = .newline then
            some (parser.endLine place (.expr value.extent value.expr) token.span)
          else none
  | .assigned place target op =>
      if token.node = .newline then
        let span := target.extent.through value.extent
        some (parser.endLine place (.assign span target.expr op value.expr) token.span)
      else none
  | .returned place opening =>
      if token.node = .newline then
        let span := opening.through value.extent
        some (parser.endLine place (.returning span (some value.expr)) token.span)
      else none
  | .decorator => if token.node = .newline then some (parser.goOn .decorated) else none
  | .condition opening branches =>
      if token.node = .symbol .colon then
        some (parser.goOn (.suite (.branch opening branches value.expr)))
      else none
  | .loop opening =>
      if token.node = .symbol .colon then
        some (parser.goOn (.suite (.whileLoop opening value.expr)))
      else none
  | .iterable opening targets =>
      if token.node = .symbol .colon then
        some (parser.goOn (.suite (.forEach opening targets value.expr)))
      else none
  | .typeHint header name =>
      if token.node = .symbol .assign then
        some (parser.goOn (.expression (.default header name (some value.expr)) {}))
      else parser.endParam header ⟨name, some value.expr, none⟩ token.node
  | .default header name typeHint =>
      parser.endParam header ⟨name, typeHint, some value.expr⟩ token.node
  | .returns header =>
      if token.node = .symbol .colon then
        some (parser.goOn (.suite (.function header (some value.expr))))
      else none
  | .base opening name bases =>
      let bases := bases ++ [value.expr]
      match token.node with
      | .symbol .comma => some (parser.goOn (.base opening name bases))
      | .symbol .rightParen => some (parser.goOn (.colon (.classDef opening name bases)))
      | _ => none

/-- One token; none if it cannot come. -/
def step (parser : Parser) (token : Located Token) : Option Parser :=
  match parser.mode with
  | .statement => parser.startStatement token
  | .expression site expression =>
      match expression.feed token with
      | some (.more expression) => some (parser.goOn (.expression site expression))
      | some (.done value) => parser.endExpression site value token
      | none => none
  | .lineEnd place stmt =>
      if token.node = .newline then some (parser.endLine place stmt token.span) else none
  | .returned place opening =>
      if token.node = .newline then
        some (parser.endLine place (.returning opening none) token.span)
      else parser.startExpression (.returned place opening) token
  | .colon owner =>
      if token.node = .symbol .colon then some (parser.goOn (.suite owner)) else none
  | .suite owner =>
      if token.node = .newline then some (parser.goOn (.indent owner))
      else parser.startSimple (.suite owner) token
  | .indent owner =>
      if token.node = .indent then
        some { parser with blocks := ⟨owner, []⟩ :: parser.blocks, mode := .statement }
      else none
  | .branchEnd opening branches stop =>
      match token.node with
      | .keyword .elifKw => some (parser.goOn (.expression (.condition opening branches) {}))
      | .keyword .elseKw => some (parser.goOn (.colon (.otherwise opening branches)))
      | _ => (parser.endChoice opening branches stop).startStatement token
  | .decorated =>
      match token.node with
      | .symbol .at => some (parser.goOn (.expression .decorator {}))
      | .keyword .defKw => some (parser.goOn (.functionName token.span))
      | .keyword .classKw => some (parser.goOn (.className token.span))
      | _ => none
  | .functionName opening =>
      match token.node with
      | .name text => some (parser.goOn (.functionOpen opening ⟨text, token.span⟩))
      | _ => none
  | .functionOpen opening name =>
      if token.node = .symbol .leftParen then
        some (parser.goOn (.parameter ⟨opening, name, []⟩))
      else none
  | .parameter header =>
      match token.node with
      | .name text => some (parser.goOn (.parameterName header ⟨text, token.span⟩))
      | .symbol .rightParen => some (parser.goOn (.signature header))
      | _ => none
  | .parameterName header name =>
      match token.node with
      | .symbol .colon => some (parser.goOn (.expression (.typeHint header name) {}))
      | .symbol .assign => some (parser.goOn (.expression (.default header name none) {}))
      | node => parser.endParam header ⟨name, none, none⟩ node
  | .signature header =>
      match token.node with
      | .symbol .arrow => some (parser.goOn (.expression (.returns header) {}))
      | .symbol .colon => some (parser.goOn (.suite (.function header none)))
      | _ => none
  | .className opening =>
      match token.node with
      | .name text => some (parser.goOn (.classOpen opening ⟨text, token.span⟩))
      | _ => none
  | .classOpen opening name =>
      match token.node with
      | .symbol .leftParen => some (parser.goOn (.base opening name []))
      | .symbol .colon => some (parser.goOn (.suite (.classDef opening name [])))
      | _ => none
  | .base opening name bases =>
      if token.node = .symbol .rightParen then
        some (parser.goOn (.colon (.classDef opening name bases)))
      else parser.startExpression (.base opening name bases) token
  | .target opening targets =>
      match token.node with
      | .name text => some (parser.goOn (.targetEnd opening (targets ++ [⟨text, token.span⟩])))
      | _ => none
  | .targetEnd opening targets =>
      match token.node with
      | .symbol .comma => some (parser.goOn (.target opening targets))
      | .keyword .inKw => some (parser.goOn (.expression (.iterable opening targets) {}))
      | _ => none

/-- The program read, if the tokens may end here. -/
def finish? (parser : Parser) : Option Program :=
  match parser.blocks, parser.mode with
  | [], .statement => some ⟨parser.items⟩
  | [], .branchEnd opening branches stop => some ⟨(parser.endChoice opening branches stop).items⟩
  | _, _ => none

/-- The kinds of tokens by the names that messages give them, each with one token of the kind.
Braces are not among them: no program contains one. -/
def terminals : List (String × Token) :=
  let words := Keyword.all.map fun word => (word.text, Token.keyword word)
  let marks : List Symbol :=
    [.leftParen, .rightParen, .leftBracket, .rightBracket, .colon, .comma, .dot, .arrow, .at,
     .assign, .plusAssign, .minusAssign, .starAssign, .slashAssign, .equal, .notEqual,
     .lessEqual, .greaterEqual, .less, .greater, .plus, .minus, .star, .starStar, .slash,
     .slashSlash, .percent]
  words ++
    [("float", .float ⟨0⟩), ("int", .int 0), ("string", .string ""),
     ("prefixed_string", .markedString ""), ("ident", .name ""), ("NEWLINE", .newline),
     ("INDENT", .indent), ("DEDENT", .dedent)] ++
    marks.map fun mark => (mark.text, Token.symbol mark)

/-- The names of the tokens that may come next, each in double quotes. -/
def expected (parser : Parser) : List String :=
  (terminals.filter fun (_, token) => (parser.step ⟨token, .point 0⟩).isSome).map
    fun (name, _) => "\"" ++ name ++ "\""

/-- Reads the remaining tokens of a source of the given length; `stop` is the end of the last
token read. -/
def run (length : Nat) (parser : Parser) (stop : Nat) :
    List (Located Token) → Except (Located SourceFault) Program
  | [] =>
      match parser.finish? with
      | some program => .ok program
      | none =>
          .error ⟨.unexpectedEnd parser.expected, (Span.point stop).merge (.point length)⟩
  | token :: rest =>
      match parser.step token with
      | some parser => parser.run length token.span.stop rest
      | none => .error ⟨.unexpectedToken token.node parser.expected, token.span⟩

end Parser

namespace Program

/-- The program with the given tokens, from a source of the given length. -/
def ofTokens (length : Nat) (tokens : List (Located Token)) :
    Except (Located SourceFault) Program :=
  Parser.run length {} 0 tokens

/-- The program that a source text spells. -/
def ofSource (source : String) : Except (Located SourceFault) Program :=
  match tokenize source with
  | .ok tokens => ofTokens (byteLength source.toList) tokens
  | .error fault => .error fault

end Program

end Rulebook
