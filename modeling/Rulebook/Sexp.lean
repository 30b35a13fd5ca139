import Rulebook.Text.Blank
import Rulebook.Text.Quoted

/-!
# S-expressions

Nested lists of atoms between parentheses. An atom between bars or double quotes may hold any
character but its own quote.
-/

namespace Rulebook

inductive Sexp where
  | atom (text : String)
  | list (items : List Sexp)
deriving Repr, Inhabited

namespace Sexp

inductive Piece where
  | opening
  | closing
  | atom (text : String)
deriving DecidableEq, Repr

def isParen (c : Char) : Bool := c == '(' || c == ')'

/-- Ends an atom that is not quoted. -/
def isDelimiter (c : Char) : Bool := Text.isBlank c || isParen c

/-- The parentheses and atoms of a text. A quoted atom that is not closed runs to the end. -/
def pieces : List Char → List Piece
  | [] => []
  | c :: rest =>
      if c = '(' then .opening :: pieces rest
      else if c = ')' then .closing :: pieces rest
      else if Text.isBlank c then pieces rest
      else if c = '|' ∨ c = '"' then
        .atom (String.ofList (rest.takeWhile (· != c))) ::
          pieces ((rest.dropWhile (· != c)).drop 1)
      else
        .atom (String.ofList (c :: rest.takeWhile (!isDelimiter ·))) ::
          pieces (rest.dropWhile (!isDelimiter ·))
termination_by chars => chars.length
decreasing_by
  all_goals simp only [List.length_cons, List.length_drop]
  all_goals try have := (List.dropWhile_sublist (· != c) (l := rest)).length_le
  all_goals try have := (List.dropWhile_sublist (!isDelimiter ·) (l := rest)).length_le
  all_goals omega

inductive ReadError where
  | unmatchedClosing
  | unmatchedOpening
deriving DecidableEq, Repr

def ReadError.message : ReadError → String
  | .unmatchedClosing => "unbalanced `)`"
  | .unmatchedOpening => "unbalanced `(`"

/-- Builds the lists, `current` holding the items of the innermost open one and `outer` those of
the ones around it. -/
def assemble (current : List Sexp) (outer : List (List Sexp)) :
    List Piece → Except ReadError (List Sexp)
  | [] => if outer.isEmpty then .ok current else .error .unmatchedOpening
  | .opening :: rest => assemble [] (current :: outer) rest
  | .closing :: rest =>
      match outer with
      | [] => .error .unmatchedClosing
      | parent :: outer => assemble (parent ++ [.list current]) outer rest
  | .atom text :: rest => assemble (current ++ [.atom text]) outer rest

/-- The s-expressions of a text. -/
def read (text : String) : Except ReadError (List Sexp) := assemble [] [] (pieces text.toList)

mutual

/-- Atoms as they are, lists with a space between their items. -/
def text : Sexp → String
  | .atom text => text
  | .list items => "(" ++ " ".intercalate (texts items) ++ ")"

def texts : List Sexp → List String
  | [] => []
  | item :: rest => item.text :: texts rest

end

mutual

/-- The structure of an s-expression in full, as messages show it. -/
def structureText : Sexp → String
  | .atom text => "Atom(" ++ Text.quoted text ++ ")"
  | .list items => "List([" ++ ", ".intercalate (structureTexts items) ++ "])"

def structureTexts : List Sexp → List String
  | [] => []
  | item :: rest => item.structureText :: structureTexts rest

end

def itemsText (items : List Sexp) : String := "[" ++ ", ".intercalate (structureTexts items) ++ "]"

/-- A list with a head and further items. -/
def apply (head : String) (arguments : List Sexp) : Sexp := .list (.atom head :: arguments)

end Sexp

end Rulebook
