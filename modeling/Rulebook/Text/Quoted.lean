import Rulebook.Text.Printable

/-!
# Quoted text

A quoted text stands between double quotes. The two characters that would be misread inside are
escaped with a backslash, the usual controls have short escapes, and any other hidden character is
written as its code point in hexadecimal.
-/

namespace Rulebook.Text

/-- Lower case hexadecimal digits without padding. -/
def hexDigits (n : Nat) : List Char :=
  Nat.toDigits 16 n

/-- How one character is written between double quotes. -/
def escapeChar (c : Char) : List Char :=
  if c = '\x00' then ['\\', '0']
  else if c = '\t' then ['\\', 't']
  else if c = '\r' then ['\\', 'r']
  else if c = '\n' then ['\\', 'n']
  else if c = '"' then ['\\', '"']
  else if c = '\\' then ['\\', '\\']
  else if isPrintable c then [c]
  else ['\\', 'u', '\x7b'] ++ hexDigits c.toNat ++ ['\x7d']

def quotedChars (chars : List Char) : List Char :=
  '"' :: (chars.flatMap escapeChar ++ ['"'])

def quoted (text : String) : String :=
  String.ofList (quotedChars text.toList)

end Rulebook.Text
