import Rulebook.Smt.Script
import Rulebook.Sexp
import Rulebook.Text.Integer
import Rulebook.Text.Split

/-!
# Meaning of solver scripts

The part of the SMT-LIB language that scripts are written in: its theories Core and Ints, as far as
scripts use them, and its commands. A term has a sort under a signature and a value under an
interpretation of the symbols. A script is well formed if every symbol is introduced once and
before it is used, and every term has the sort that its place asks for. It is satisfied by an
assignment of values to its constants if all its assertions are true under it.
-/

namespace Rulebook.Smt

inductive Datum where
  | bool (value : Bool)
  | int (value : Int)
deriving DecidableEq, Repr

def Datum.sort : Datum → ValueSort
  | .bool _ => .bool
  | .int _ => .int

/-- Sorts of symbols, the latest first. -/
abbrev Signature := List (String × ValueSort)

/-- Values of symbols, the latest first. -/
abbrev Interpretation := List (String × Datum)

def Interpretation.signature (interpretation : Interpretation) : Signature :=
  interpretation.map fun (symbol, datum) => (symbol, datum.sort)

inductive Operator where
  | not | and | or | equal | choose | less | atMost | greater | atLeast | minus
deriving DecidableEq, Repr

namespace Operator

def all : List Operator :=
  [.not, .and, .or, .equal, .choose, .less, .atMost, .greater, .atLeast, .minus]

def name : Operator → String
  | .not => "not"
  | .and => "and"
  | .or => "or"
  | .equal => "="
  | .choose => "ite"
  | .less => "<"
  | .atMost => "<="
  | .greater => ">"
  | .atLeast => ">="
  | .minus => "-"

def ofName? (name : String) : Option Operator := all.find? fun operator => operator.name = name

/-- The sort of an application. Equality and the order are chained, and connectives and chains
have two operands at least. -/
def sort? : Operator → List ValueSort → Option ValueSort
  | .not, [.bool] => some .bool
  | .and, sorts | .or, sorts =>
      if 2 ≤ sorts.length ∧ ∀ sort ∈ sorts, sort = .bool then some .bool else none
  | .equal, first :: rest =>
      if 1 ≤ rest.length ∧ ∀ sort ∈ rest, sort = first then some .bool else none
  | .choose, [.bool, first, second] => if first = second then some first else none
  | .less, sorts | .atMost, sorts | .greater, sorts | .atLeast, sorts =>
      if 2 ≤ sorts.length ∧ ∀ sort ∈ sorts, sort = .int then some .bool else none
  | .minus, [.int] => some .int
  | _, _ => none

/-- Whether a relation holds between neighbours. -/
def chained (related : Datum → Datum → Bool) : List Datum → Bool
  | first :: second :: rest => related first second && chained related (second :: rest)
  | _ => true

def integers (related : Int → Int → Bool) : Datum → Datum → Bool
  | .int first, .int second => related first second
  | _, _ => false

/-- The value of an application to operands of the right sorts. -/
def value? : Operator → List Datum → Option Datum
  | .not, [.bool value] => some (.bool !value)
  | .and, data => some (.bool (data.all (· = .bool true)))
  | .or, data => some (.bool (data.any (· = .bool true)))
  | .equal, data => some (.bool (chained (fun first second => first = second) data))
  | .choose, [.bool condition, first, second] => some (if condition then first else second)
  | .less, data => some (.bool (chained (integers fun first second => first < second) data))
  | .atMost, data => some (.bool (chained (integers fun first second => first ≤ second) data))
  | .greater, data => some (.bool (chained (integers fun first second => second < first) data))
  | .atLeast, data => some (.bool (chained (integers fun first second => second ≤ first) data))
  | .minus, [.int value] => some (.int (-value))
  | _, _ => none

end Operator

/-- A numeral has no leading zero. -/
def numeral? (text : String) : Option Nat :=
  match text.toList with
  | ['0'] => some 0
  | '0' :: _ => none
  | digits => Text.natural? 10 digits

/-- The value of an atom that the theories fix. -/
def constant? (text : String) : Option Datum :=
  if text = "true" then some (.bool true)
  else if text = "false" then some (.bool false)
  else (numeral? text).map fun number : Nat => .int number

mutual

/-- The sort of a term, if it is well sorted. -/
def sort? (signature : Signature) : Sexp → Option ValueSort
  | .atom text =>
      match constant? text with
      | some datum => some datum.sort
      | none => signature.lookup text
  | .list (.atom name :: arguments) =>
      match Operator.ofName? name, sorts? signature arguments with
      | some operator, some sorts => operator.sort? sorts
      | _, _ => none
  | .list _ => none

def sorts? (signature : Signature) : List Sexp → Option (List ValueSort)
  | [] => some []
  | term :: rest =>
      match sort? signature term, sorts? signature rest with
      | some sort, some sorts => some (sort :: sorts)
      | _, _ => none

end

mutual

/-- The value of a term. -/
def value? (interpretation : Interpretation) : Sexp → Option Datum
  | .atom text =>
      match constant? text with
      | some datum => some datum
      | none => interpretation.lookup text
  | .list (.atom name :: arguments) =>
      match Operator.ofName? name, values? interpretation arguments with
      | some operator, some data => operator.value? data
      | _, _ => none
  | .list _ => none

def values? (interpretation : Interpretation) : List Sexp → Option (List Datum)
  | [] => some []
  | term :: rest =>
      match value? interpretation term, values? interpretation rest with
      | some datum, some data => some (datum :: data)
      | _, _ => none

end

/-! ## Commands -/

inductive Command where
  | setOption (option value : String)
  | setLogic (logic : String)
  | declareConst (symbol : String) (sort : ValueSort)
  /-- A function without parameters. -/
  | defineConst (symbol : String) (sort : ValueSort) (body : Sexp)
  | assert (term : Sexp)
  | checkSat
  | getValue (terms : List Sexp)

def sortOfName? (name : String) : Option ValueSort :=
  if name = "Bool" then some .bool else if name = "Int" then some .int else none

def Command.ofSexp? : Sexp → Option Command
  | .list [.atom "set-option", .atom option, .atom value] => some (.setOption option value)
  | .list [.atom "set-logic", .atom logic] => some (.setLogic logic)
  | .list [.atom "declare-const", .atom symbol, .atom sort] =>
      (sortOfName? sort).map (.declareConst symbol)
  | .list [.atom "define-fun", .atom symbol, .list [], .atom sort, body] =>
      (sortOfName? sort).map (.defineConst symbol · body)
  | .list [.atom "assert", term] => some (.assert term)
  | .list [.atom "check-sat"] => some .checkSat
  | .list [.atom "get-value", .list terms] => some (.getValue terms)
  | _ => none

def isComment (line : List Char) : Bool := line.head? == some ';'

/-- The script without the lines that are comments. -/
def withoutComments (text : String) : String :=
  String.ofList <| List.intercalate ['\n'] <|
    (Text.splitEvery '\n' text.toList).filter (!isComment ·)

/-- The commands of a script. -/
def commands? (text : String) : Option (List Command) :=
  match Sexp.read (withoutComments text) with
  | .ok items => items.mapM Command.ofSexp?
  | .error _ => none

/-- Words that cannot be used as symbols. -/
def reservedWords : List String :=
  ["!", "_", "as", "BINARY", "DECIMAL", "exists", "HEXADECIMAL", "forall", "let", "match",
   "NUMERAL", "par", "STRING", "assert", "check-sat", "check-sat-assuming", "declare-const",
   "declare-datatype", "declare-datatypes", "declare-fun", "declare-sort", "define-fun",
   "define-fun-rec", "define-funs-rec", "define-sort", "echo", "exit", "get-assertions",
   "get-assignment", "get-info", "get-model", "get-option", "get-proof",
   "get-unsat-assumptions", "get-unsat-core", "get-value", "pop", "push", "reset",
   "reset-assertions", "set-info", "set-logic", "set-option"]

/-- Symbols of the theories Core and Ints. -/
def theorySymbols : List String :=
  ["true", "false", "not", "=>", "and", "or", "xor", "=", "distinct", "ite",
   "-", "+", "*", "div", "mod", "abs", "<=", "<", ">=", ">"]

def isSymbolChar (c : Char) : Bool :=
  c.isAlphanum || "~!@$%^&*_-+=<>.?/".toList.contains c

/-- A text that a script may introduce as a symbol without quoting it. -/
def IsSymbol (text : String) : Prop :=
  (∃ first rest, text.toList = first :: rest ∧ first.isDigit = false) ∧
    (∀ c ∈ text.toList, isSymbolChar c = true) ∧
    text ∉ reservedWords ∧ text ∉ theorySymbols

/-- The commands are well formed after others that have introduced a signature: each symbol is
introduced once, and each term is well sorted over the symbols before it. -/
def WellFormed (signature : Signature) : List Command → Prop
  | [] => True
  | .declareConst symbol sort :: rest =>
      IsSymbol symbol ∧ signature.lookup symbol = none ∧
        WellFormed ((symbol, sort) :: signature) rest
  | .defineConst symbol sort body :: rest =>
      IsSymbol symbol ∧ signature.lookup symbol = none ∧ sort? signature body = some sort ∧
        WellFormed ((symbol, sort) :: signature) rest
  | .assert term :: rest => sort? signature term = some .bool ∧ WellFormed signature rest
  | .getValue terms :: rest =>
      terms ≠ [] ∧ (∀ term ∈ terms, ∃ sort, sort? signature term = some sort) ∧
        WellFormed signature rest
  | .setOption _ _ :: rest | .setLogic _ :: rest | .checkSat :: rest => WellFormed signature rest

/-- Values for constants of both sorts. -/
structure Assignment where
  bools : String → Bool
  ints : String → Int

def Assignment.datum (assignment : Assignment) (symbol : String) : ValueSort → Datum
  | .bool => .bool (assignment.bools symbol)
  | .int => .int (assignment.ints symbol)

/-- Every assertion is true where declared constants have the assigned values. -/
def Satisfies (assignment : Assignment) (interpretation : Interpretation) : List Command → Prop
  | [] => True
  | .declareConst symbol sort :: rest =>
      Satisfies assignment ((symbol, assignment.datum symbol sort) :: interpretation) rest
  | .defineConst symbol _ body :: rest =>
      ∃ datum, value? interpretation body = some datum ∧
        Satisfies assignment ((symbol, datum) :: interpretation) rest
  | .assert term :: rest =>
      value? interpretation term = some (.bool true) ∧ Satisfies assignment interpretation rest
  | .getValue _ :: rest | .setOption _ _ :: rest | .setLogic _ :: rest | .checkSat :: rest =>
      Satisfies assignment interpretation rest

end Rulebook.Smt
