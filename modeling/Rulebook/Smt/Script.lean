import Rulebook.Obligation.Basic

/-!
# Solver scripts

A script declares constants, defines functions, asserts terms, asks whether the assertions can be
satisfied together, and asks for values.
-/

namespace Rulebook.Smt

def sortName : ValueSort → String
  | .bool => "Bool"
  | .int => "Int"

/-- The lines of a script by section. -/
structure Script where
  options : List String := ["(set-option :produce-models true)"]
  declarations : List String := []
  definitions : List String := []
  assertions : List String := []
  queries : List String := []
deriving DecidableEq, Repr

namespace Script

def setOption (script : Script) (option value : String) : Script :=
  { script with options := script.options ++ ["(set-option " ++ option ++ " " ++ value ++ ")"] }

def declare (script : Script) (line : String) : Script :=
  { script with declarations := script.declarations ++ [line] }

def declareConst (script : Script) (symbol : String) (sort : ValueSort) : Script :=
  script.declare ("(declare-const " ++ symbol ++ " " ++ sortName sort ++ ")")

/-- A text with its line breaks replaced by spaces. -/
def oneLine (text : String) : String :=
  String.ofList (text.toList.map fun c => if c = '\n' ∨ c = '\r' then ' ' else c)

/-- A comment among the declarations; it stays on one line. -/
def comment (script : Script) (text : String) : Script := script.declare ("; " ++ oneLine text)

def defineFun (script : Script) (symbol : String) (sort : ValueSort) (body : String) : Script :=
  { script with
    definitions := script.definitions ++
      ["(define-fun " ++ symbol ++ " () " ++ sortName sort ++ " " ++ body ++ ")"] }

def assert (script : Script) (term : String) : Script :=
  { script with assertions := script.assertions ++ ["(assert " ++ term ++ ")"] }

/-- Asks for the values of symbols, if there are any. -/
def getValue (script : Script) (symbols : List String) : Script :=
  if symbols.isEmpty then script
  else
    { script with
      queries := script.queries ++ ["(get-value (" ++ " ".intercalate symbols ++ "))"] }

/-- A section after an empty line, or nothing if it has no lines. -/
def paragraph (lines : List String) : List String := if lines.isEmpty then [] else "" :: lines

def lines (script : Script) : List String :=
  ["; generated by declogic"] ++ script.options ++ ["(set-logic QF_LIA)"] ++
    paragraph script.declarations ++ paragraph script.definitions ++ paragraph script.assertions ++
    ["", "(check-sat)"] ++ script.queries

def text (script : Script) : String := String.join (script.lines.map (· ++ "\n"))

end Script

end Rulebook.Smt
