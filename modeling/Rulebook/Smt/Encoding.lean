import Rulebook.Sexp
import Rulebook.Smt.Script

/-!
# Encoding obligations

An obligation becomes a script whose assertions can be satisfied together exactly when some
admissible assignment makes the decision yield an invalid output. The results of the decision are
encoded by their places in a table of outputs, so that the decision is one integer term.
-/

namespace Rulebook.Smt

inductive EncodeError where
  /-- A comparison that orders a number against something else. -/
  | unsupportedComparison (name : String) (op : Comparator) (constant : Value)
  | undeclared (name : String)
deriving DecidableEq, Repr

def EncodeError.message : EncodeError → String
  | .unsupportedComparison name op constant =>
      "cannot translate `" ++ name ++ " " ++ op.symbol ++ " " ++ constant.text ++
        "`: ordering against a non-numeric constant"
  | .undeclared name => "name `" ++ name ++ "` is not declared"

/-- The symbol of a name. What is put in front keeps it apart from reserved words. -/
def symbol (name : String) : String := "v_" ++ name

def verbatimSymbol (index : Nat) : String := "opaque_" ++ toString index

def natTerm (n : Nat) : Sexp := .atom (toString n)

/-- A negative number is the negation of a positive one. -/
def intTerm (value : Int64) : Sexp :=
  if value.toInt < 0 then .apply "-" [natTerm value.toInt.natAbs]
  else natTerm value.toInt.natAbs

def boolTerm (value : Bool) : Sexp := .atom (if value then "true" else "false")

def notTerm (term : Sexp) : Sexp := .apply "not" [term]

/-- A junction of terms, of which there may be none or only one. -/
def junctionTerm (kind : Junction) : List Sexp → Sexp
  | [] => boolTerm kind.unit
  | [term] => term
  | terms => .apply (match kind with | .and => "and" | .or => "or") terms

def relationTerm (op : Comparator) (left right : Sexp) : Sexp :=
  match op with
  | .lt => .apply "<" [left, right]
  | .le => .apply "<=" [left, right]
  | .gt => .apply ">" [left, right]
  | .ge => .apply ">=" [left, right]
  | .eq => .apply "=" [left, right]
  | .ne => notTerm (.apply "=" [left, right])

/-- A name as a number; truth values count as one and zero. -/
def numberTerm (name : String) : ValueSort → Sexp
  | .int => .atom (symbol name)
  | .bool => .apply "ite" [.atom (symbol name), natTerm 1, natTerm 0]

/-- What the terms of an obligation refer to: the sorts of names, and the texts of the conditions
kept as text, each of which stands for a constant of its own. -/
structure Scope where
  sorts : TextMap ValueSort
  verbatims : List String

namespace Scope

def sort (scope : Scope) (name : String) : Except EncodeError ValueSort :=
  match scope.sorts.get? name with
  | some sort => .ok sort
  | none => .error (.undeclared name)

/-- A name compared with a constant. Two truth values are equated as they are, otherwise they count
as numbers; nothing else is ever equal to a number, nor can it be ordered with one. -/
def comparison (scope : Scope) (name : String) (op : Comparator) (constant : Value) :
    Except EncodeError Sexp :=
  match scope.sort name with
  | .error error => .error error
  | .ok sort =>
      match sort, constant, op with
      | .bool, .bool value, .eq => .ok (.apply "=" [.atom (symbol name), boolTerm value])
      | .bool, .bool value, .ne =>
          .ok (notTerm (.apply "=" [.atom (symbol name), boolTerm value]))
      | _, _, _ =>
          match constant.asInt?, op with
          | some value, _ => .ok (relationTerm op (numberTerm name sort) (intTerm value))
          | none, .eq => .ok (boolTerm false)
          | none, .ne => .ok (boolTerm true)
          | none, _ => .error (.unsupportedComparison name op constant)

mutual

def condition (scope : Scope) : Condition → Except EncodeError Sexp
  | .literal value => .ok (boolTerm value)
  | .var name =>
      match scope.sort name with
      | .error error => .error error
      | .ok .bool => .ok (.atom (symbol name))
      | .ok .int => .ok (notTerm (.apply "=" [.atom (symbol name), natTerm 0]))
  | .comparison name op constant => scope.comparison name op constant
  | .junction kind parts => (scope.conditions parts).map (junctionTerm kind)
  | .not operand => (scope.condition operand).map notTerm
  | .verbatim text => .ok (.atom (verbatimSymbol (scope.verbatims.idxOf text)))

def conditions (scope : Scope) : List Condition → Except EncodeError (List Sexp)
  | [] => .ok []
  | part :: rest =>
      match scope.condition part with
      | .error error => .error error
      | .ok term => (scope.conditions rest).map (term :: ·)

end

/-- The decision as a choice between the places of its results in the table of outputs. -/
def decision (scope : Scope) (outputs : List Literal) : Decision → Except EncodeError Sexp
  | .leaf result => .ok (natTerm (outputs.idxOf result))
  | .branch condition result otherwise =>
      match scope.condition condition with
      | .error error => .error error
      | .ok term =>
          (scope.decision outputs otherwise).map fun rest =>
            .apply "ite" [term, natTerm (outputs.idxOf result), rest]

end Scope

/-- What a constraint asserts of its parameter, beyond what the sort says. -/
def constraintTerm? (name : String) : Constraint → Option Sexp
  | .boolean => none
  | .range min max =>
      let lower := min.toList.map fun bound =>
        Sexp.apply ">=" [.atom (symbol name), intTerm bound]
      let upper := max.toList.map fun bound =>
        Sexp.apply "<=" [.atom (symbol name), intTerm bound]
      if (lower ++ upper).isEmpty then none else some (junctionTerm .and (lower ++ upper))
  | .oneOf values =>
      some (junctionTerm .or (values.map fun value =>
        .apply "=" [.atom (symbol name), intTerm value]))

structure Encoding where
  script : Script
  /-- The table of outputs. -/
  outputs : List Literal
  /-- The parameters that values are asked of, by their symbols. -/
  symbols : TextMap (String × ValueSort)

/-- The condition texts that a decision depends on, each once. -/
def verbatimsOf (decision : Decision) : List String :=
  firstOccurrences (decision.conditions.flatMap Condition.verbatimTexts)

def scopeOf (obligation : Obligation) : Scope where
  sorts := .ofList (obligation.unknowns.map fun var => (var.name, var.sort))
  verbatims := verbatimsOf obligation.decision

/-- The results of the decision and the other valid outputs. -/
def outputsOf (obligation : Obligation) : List Literal :=
  firstOccurrences (obligation.decision.outputs ++ obligation.validOutputs)

/-- Says that the decision is none of the valid outputs. -/
def negatedGoal (outputs valid : List Literal) : Sexp :=
  notTerm (junctionTerm .or (valid.map fun output =>
    .apply "=" [.atom "decision", natTerm (outputs.idxOf output)]))

namespace Script

/-- A time limit in milliseconds, if there is one. -/
def setTimeout (script : Script) : Option Nat → Script
  | some time => script.setOption ":timeout" (toString time)
  | none => script

def declareUnknowns (script : Script) (unknowns : List Variable) : Script :=
  unknowns.foldl (fun script var => script.declareConst (symbol var.name) var.sort) script

/-- A constant for each condition text, which a comment quotes. -/
def declareVerbatims (script : Script) (texts : List String) : Script :=
  texts.zipIdx.foldl (fun script (text, index) =>
    (script.comment (verbatimSymbol index ++ ": " ++ text)).declareConst
      (verbatimSymbol index) .bool) script

/-- The table of outputs as comments. -/
def describeOutputs (script : Script) (outputs : List Literal) : Script :=
  outputs.zipIdx.foldl (fun script (output, index) =>
    script.comment ("output " ++ toString index ++ ": " ++ output.text)) script

def assertAll (script : Script) (terms : List Sexp) : Script :=
  terms.foldl (fun script term => script.assert term.text) script

end Script

/-- What the constraints of an obligation assert, in the order of the parameters' names. -/
def constraintTerms (obligation : Obligation) : List Sexp :=
  obligation.constraints.entries.filterMap fun (name, constraint) => constraintTerm? name constraint

/-- The script of an obligation, given the term of its decision. -/
def scriptOf (obligation : Obligation) (timeout : Option Nat) (body : Sexp) : Script :=
  let goal := negatedGoal (outputsOf obligation) obligation.validOutputs
  ({} : Script)
    |>.setTimeout timeout
    |>.declareUnknowns obligation.unknowns
    |>.declareVerbatims (verbatimsOf obligation.decision)
    |>.describeOutputs (outputsOf obligation)
    |>.defineFun "decision" .int body.text
    |>.assertAll (constraintTerms obligation ++ [goal])
    |>.getValue (obligation.parameters.map fun var => symbol var.name)

/-- The encoding of an obligation under a time limit in milliseconds. -/
def encode (obligation : Obligation) (timeout : Option Nat) : Except EncodeError Encoding :=
  let outputs := outputsOf obligation
  ((scopeOf obligation).decision outputs obligation.decision).map fun body =>
    { script := scriptOf obligation timeout body
      outputs
      symbols := .ofList (obligation.parameters.map fun var =>
        (symbol var.name, var.name, var.sort)) }

end Rulebook.Smt
