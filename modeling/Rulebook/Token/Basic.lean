import Rulebook.Number.Binary64
import Rulebook.Source.Span
import Rulebook.Text.Quoted

/-!
# Tokens

The vocabulary of the source language: words reserved by it, symbols, literals, names, and the
three layout tokens that stand for line ends and changes of indentation.
-/

namespace Rulebook

inductive Keyword where
  | defKw | classKw | ifKw | elifKw | elseKw | returnKw | passKw | breakKw | continueKw
  | forKw | whileKw | inKw | isKw | andKw | orKw | notKw | trueKw | falseKw | noneKw
deriving DecidableEq, Repr

inductive Symbol where
  | leftParen | rightParen | leftBracket | rightBracket | leftBrace | rightBrace
  | colon | comma | dot | arrow | at
  | assign | plusAssign | minusAssign | starAssign | slashAssign
  | equal | notEqual | lessEqual | greaterEqual | less | greater
  | plus | minus | star | starStar | slash | slashSlash | percent
deriving DecidableEq, Repr

inductive Token where
  | keyword (word : Keyword)
  | symbol (mark : Symbol)
  | float (value : Number.Binary64)
  | int (value : Int64)
  /-- A string literal, by its content. -/
  | string (content : String)
  /-- A string literal with a formatting or bytes mark, as written. -/
  | markedString (written : String)
  | name (text : String)
  | newline
  | indent
  | dedent
deriving DecidableEq, Repr

namespace Keyword

def text : Keyword → String
  | .defKw => "def"
  | .classKw => "class"
  | .ifKw => "if"
  | .elifKw => "elif"
  | .elseKw => "else"
  | .returnKw => "return"
  | .passKw => "pass"
  | .breakKw => "break"
  | .continueKw => "continue"
  | .forKw => "for"
  | .whileKw => "while"
  | .inKw => "in"
  | .isKw => "is"
  | .andKw => "and"
  | .orKw => "or"
  | .notKw => "not"
  | .trueKw => "True"
  | .falseKw => "False"
  | .noneKw => "None"

def all : List Keyword :=
  [.defKw, .classKw, .ifKw, .elifKw, .elseKw, .returnKw, .passKw, .breakKw, .continueKw, .forKw,
   .whileKw, .inKw, .isKw, .andKw, .orKw, .notKw, .trueKw, .falseKw, .noneKw]

def ofText? (text : String) : Option Keyword :=
  all.find? fun word => word.text = text

end Keyword

namespace Symbol

def text : Symbol → String
  | .leftParen => "("
  | .rightParen => ")"
  | .leftBracket => "["
  | .rightBracket => "]"
  | .leftBrace => "\x7b"
  | .rightBrace => "\x7d"
  | .colon => ":"
  | .comma => ","
  | .dot => "."
  | .arrow => "->"
  | .at => "@"
  | .assign => "="
  | .plusAssign => "+="
  | .minusAssign => "-="
  | .starAssign => "*="
  | .slashAssign => "/="
  | .equal => "=="
  | .notEqual => "!="
  | .lessEqual => "<="
  | .greaterEqual => ">="
  | .less => "<"
  | .greater => ">"
  | .plus => "+"
  | .minus => "-"
  | .star => "*"
  | .starStar => "**"
  | .slash => "/"
  | .slashSlash => "//"
  | .percent => "%"

/-- Every symbol, the two-character ones first. -/
def all : List Symbol :=
  [.arrow, .plusAssign, .minusAssign, .starAssign, .slashAssign, .equal, .notEqual, .lessEqual,
   .greaterEqual, .starStar, .slashSlash, .leftParen, .rightParen, .leftBracket, .rightBracket,
   .leftBrace, .rightBrace, .colon, .comma, .dot, .at, .assign, .less, .greater, .plus, .minus,
   .star, .slash, .percent]

/-- Line breaks are insignificant from an opening bracket to its closing partner. -/
def opensGroup (mark : Symbol) : Bool :=
  mark == .leftParen || mark == .leftBracket || mark == .leftBrace

def closesGroup (mark : Symbol) : Bool :=
  mark == .rightParen || mark == .rightBracket || mark == .rightBrace

end Symbol

namespace Token

/-- A word is a keyword if it is reserved and a name otherwise. -/
def ofWord (text : String) : Token :=
  match Keyword.ofText? text with
  | some word => .keyword word
  | none => .name text

/-- How a message shows the token. -/
def text : Token → String
  | .keyword word => word.text
  | .symbol mark => mark.text
  | .float value => value.text
  | .int value => toString value.toInt
  | .string content => Text.quoted content
  | .markedString written => written
  | .name text => text
  | .newline => "newline"
  | .indent => "indent"
  | .dedent => "dedent"

end Token

end Rulebook
