import Rulebook.Json.Basic
import Rulebook.Text.Quoted

/-!
# JSON as text

Indented by two spaces, one item or field on each line; empty lists and objects stay on one line.
-/

namespace Rulebook.Json

/-- How one character is written in a JSON string. Characters outside ASCII stand as they are. -/
def escapeChar (c : Char) : List Char :=
  if c = '"' then ['\\', '"']
  else if c = '\\' then ['\\', '\\']
  else if c = '\n' then ['\\', 'n']
  else if c = '\r' then ['\\', 'r']
  else if c = '\t' then ['\\', 't']
  else if c = '\x08' then ['\\', 'b']
  else if c = '\x0c' then ['\\', 'f']
  else if c.toNat < 0x20 then
    let digits := Text.hexDigits c.toNat
    ['\\', 'u'] ++ List.replicate (4 - digits.length) '0' ++ digits
  else [c]

def quoted (text : String) : String :=
  String.ofList ('"' :: (text.toList.flatMap escapeChar ++ ['"']))

def indentation (depth : Nat) : String :=
  String.ofList (List.replicate (2 * depth) ' ')

/-- A number with decimal places; at least one digit stands before the point. -/
def decimalText (digits : Int) (places : Nat) : String :=
  let written := Nat.toDigits 10 digits.natAbs
  let padded := List.replicate (places + 1 - written.length) '0' ++ written
  let whole := padded.length - places
  (if digits < 0 then "-" else "") ++
    String.ofList (padded.take whole ++ '.' :: padded.drop whole)

/-- Items on lines of their own, between an opening and a closing mark. -/
def block (opening closing : String) (depth : Nat) (items : List String) : String :=
  if items.isEmpty then opening ++ closing
  else
    opening ++ "\n" ++
      ",\n".intercalate (items.map (indentation (depth + 1) ++ ·)) ++
      "\n" ++ indentation depth ++ closing

mutual

def pretty (depth : Nat) : Json → String
  | .null => "null"
  | .bool true => "true"
  | .bool false => "false"
  | .int value => toString value
  | .decimal digits places => decimalText digits places
  | .string value => quoted value
  | .array items => block "[" "]" depth (prettyItems (depth + 1) items)
  | .object fields => block "\x7b" "\x7d" depth (prettyFields (depth + 1) fields)

def prettyItems (depth : Nat) : List Json → List String
  | [] => []
  | item :: rest => pretty depth item :: prettyItems depth rest

def prettyFields (depth : Nat) : List (String × Json) → List String
  | [] => []
  | (name, value) :: rest =>
      (quoted name ++ ": " ++ pretty depth value) :: prettyFields depth rest

end

/-- The text of a JSON value. -/
def text (json : Json) : String := json.pretty 0

end Rulebook.Json
