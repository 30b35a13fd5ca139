import Rulebook.Comparator
import Rulebook.Distinct
import Rulebook.SortedSet
import Rulebook.Text.Blank
import Rulebook.Value

/-!
# Conditions

The condition of a rule: truth tests of names, comparisons of a name with a constant, and their
boolean combinations. A condition outside this language is kept as the text it was written in and
never evaluated.
-/

namespace Rulebook

inductive Junction where
  | and
  | or
deriving DecidableEq, Repr

inductive Condition where
  | literal (value : Bool)
  /-- A name that is tested for truth. -/
  | var (name : String)
  | comparison (name : String) (op : Comparator) (constant : Value)
  | junction (kind : Junction) (parts : List Condition)
  | not (operand : Condition)
  | verbatim (text : String)
deriving Repr

namespace Junction

/-- The truth value of a junction without parts. -/
def unit : Junction → Bool
  | .and => true
  | .or => false

/-- The truth value of a part that settles the whole. -/
def decisive : Junction → Bool
  | .and => false
  | .or => true

def dual : Junction → Junction
  | .and => .or
  | .or => .and

def separator : Junction → String
  | .and => " and "
  | .or => " or "

/-- How tightly the junction binds when it is written out. -/
def level : Junction → Nat
  | .or => 1
  | .and => 2

end Junction

namespace Condition

/-- What a condition contributes to a junction: the parts of one of the same kind, or itself. -/
def splice (kind : Junction) : Condition → List Condition
  | .junction inner parts => if inner = kind then parts else [.junction inner parts]
  | other => [other]

/-- The junction of the given parts, of which there may be none or only one. -/
def ofParts (kind : Junction) : List Condition → Condition
  | [] => .literal kind.unit
  | [part] => part
  | parts => .junction kind parts

/-- Joins conditions. Those of the same kind are spliced into the result, one level deep. -/
def join (kind : Junction) (parts : List Condition) : Condition :=
  ofParts kind (parts.flatMap (splice kind))

def isTrue : Condition → Bool
  | .literal value => value
  | _ => false

def isFalse : Condition → Bool
  | .literal value => !value
  | _ => false

/-- The operands of a junction at the top, or else the condition itself. -/
def topParts : Condition → List Condition
  | .junction _ parts => parts
  | other => [other]

mutual

/-- The condition and all conditions in it, each before those it is made of. -/
def nodes : Condition → List Condition
  | .junction kind parts => .junction kind parts :: nodesOf parts
  | .not operand => .not operand :: nodes operand
  | other => [other]

def nodesOf : List Condition → List Condition
  | [] => []
  | part :: rest => nodes part ++ nodesOf rest

end

/-- The name that a node itself reads. -/
def name? : Condition → Option String
  | .var name => some name
  | .comparison name _ _ => some name
  | _ => none

/-- Every name that the condition reads, in order and without repetition. -/
def names (condition : Condition) : List String :=
  SortedSet.ofList Text.compareText (condition.nodes.filterMap name?)

def comparison? : Condition → Option (String × Comparator × Value)
  | .comparison name op constant => some (name, op, constant)
  | _ => none

/-- Every comparison in the condition, from left to right. -/
def comparisons (condition : Condition) : List (String × Comparator × Value) :=
  condition.nodes.filterMap comparison?

def verbatim? : Condition → Option String
  | .verbatim text => some text
  | _ => none

/-- The texts of the parts kept as text, each where it first occurs. -/
def verbatimTexts (condition : Condition) : List String :=
  firstOccurrences (condition.nodes.filterMap verbatim?)

/-- How tightly the text of a condition holds together. A text with a blank in it may be read in
two ways and binds least. -/
def level : Condition → Nat
  | .junction kind _ => kind.level
  | .not _ => 3
  | .verbatim text => if text.toList.any Text.isBlank then 0 else 4
  | _ => 4

/-- A text as an operand of something that binds at `outer`. -/
def enclose (inner outer : Nat) (text : String) : String :=
  if inner ≤ outer then "(" ++ text ++ ")" else text

mutual

def text : Condition → String
  | .literal true => "True"
  | .literal false => "False"
  | .var name => name
  | .comparison name op constant => name ++ " " ++ op.symbol ++ " " ++ constant.text
  | .junction kind parts => kind.separator.intercalate (operandTexts kind.level parts)
  | .not operand => "not " ++ enclose operand.level 2 operand.text
  | .verbatim text => text

def operandTexts (outer : Nat) : List Condition → List String
  | [] => []
  | part :: rest => enclose part.level outer part.text :: operandTexts outer rest

end

end Condition

end Rulebook
