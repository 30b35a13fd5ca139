/-!
# Splitting text

Cutting a list of characters at one mark or at every mark.
-/

namespace Rulebook.Text

/-- What lies between the marks. There is one part more than there are marks. -/
def splitEvery (mark : Char) : List Char → List (List Char)
  | [] => [[]]
  | c :: rest =>
      match splitEvery mark rest with
      | [] => [[c]]
      | part :: parts => if c = mark then [] :: part :: parts else (c :: part) :: parts

/-- What lies before and after the first occurrence of a mark. -/
def splitFirst? (mark : List Char) : List Char → Option (List Char × List Char)
  | [] => if mark.isEmpty then some ([], []) else none
  | c :: rest =>
      if mark.isPrefixOf (c :: rest) then some ([], (c :: rest).drop mark.length)
      else (splitFirst? mark rest).map fun (before, after) => (c :: before, after)

end Rulebook.Text
