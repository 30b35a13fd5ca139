import Rulebook.Number.Binary64
import Rulebook.Text.Integer

/-!
# Number literals

The value of a decimal literal with a point or an exponent. Underscores among its digits only
group them.
-/

namespace Rulebook.Number

def withoutBars (chars : List Char) : List Char := chars.filter (· != '_')

/-- The value of `digits . digits e exponent`, where every part may be missing. -/
def Binary64.ofLiteral (written : List Char) : Binary64 :=
  let chars := withoutBars written
  let whole := chars.takeWhile Char.isDigit
  let rest := chars.dropWhile Char.isDigit
  let (fraction, rest) := match rest with
    | '.' :: rest => (rest.takeWhile Char.isDigit, rest.dropWhile Char.isDigit)
    | rest => ([], rest)
  let exponent : Int := match rest with
    | _ :: '-' :: digits => -((Text.natural? 10 digits).getD 0 : Nat)
    | _ :: '+' :: digits => ((Text.natural? 10 digits).getD 0 : Nat)
    | _ :: digits => ((Text.natural? 10 digits).getD 0 : Nat)
    | [] => 0
  Binary64.ofDecimal ((Text.natural? 10 (whole ++ fraction)).getD 0)
    (exponent - (fraction.length : Int))

end Rulebook.Number
