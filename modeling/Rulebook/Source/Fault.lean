import Rulebook.Token.Basic

/-!
# Faults of a source text

Why a text is not a program: a stretch that is no token, indentation that returns to no open
level, or a token that cannot come next.
-/

namespace Rulebook

inductive SourceFault where
  | unexpectedCharacter (text : String)
  | unmatchedUnindent
  | unexpectedToken (token : Token) (expected : List String)
  | unexpectedEnd (expected : List String)
deriving DecidableEq, Repr

namespace SourceFault

/-- The fault in words, without the list of what could have come instead. -/
def summary : SourceFault → String
  | .unexpectedCharacter text => "unexpected character: " ++ Text.quoted text
  | .unmatchedUnindent => "unindent does not match any outer indentation level"
  | .unexpectedToken token _ => "unexpected `" ++ token.text ++ "`"
  | .unexpectedEnd _ => "unexpected end of input"

/-- The tokens that could have come instead, where the fault is about a token. -/
def expected? : SourceFault → Option (List String)
  | .unexpectedToken _ expected => some expected
  | .unexpectedEnd expected => some expected
  | _ => none

def message (fault : SourceFault) : String :=
  match fault.expected? with
  | none => fault.summary
  | some expected => fault.summary ++ ", expected one of " ++ ", ".intercalate expected

end SourceFault

end Rulebook
