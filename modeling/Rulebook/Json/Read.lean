import Rulebook.Json.Basic
import Rulebook.Number.Literal

/-!
# Reading JSON

A text holds one value, with nothing but blanks around it. Whole numbers are integers, all others
keep their decimal places; a number beyond the double precision ones is refused. A reading function
gives what it has read and the characters after it.
-/

namespace Rulebook.Json

/-- How deep arrays and objects may nest. -/
def deepest : Nat := 127

def isBlank (c : Char) : Bool := c == ' ' || c == '\t' || c == '\n' || c == '\r'

def skipBlanks (chars : List Char) : List Char := chars.dropWhile isBlank

/-- A code unit of four hexadecimal digits. -/
def codeUnit? (chars : List Char) : Option (Nat × List Char) :=
  let digits := chars.take 4
  if digits.length = 4 then (Text.natural? 16 digits).map fun unit => (unit, chars.drop 4)
  else none

/-- A character given by one code unit, or by the two halves of a pair. -/
def codePoint? (chars : List Char) : Option (Char × List Char) :=
  match codeUnit? chars with
  | none => none
  | some (high, rest) =>
      if high < 0xD800 ∨ 0xDFFF < high then some (Char.ofNat high, rest)
      else if 0xDC00 ≤ high then none
      else
        match rest with
        | '\\' :: 'u' :: rest =>
            match codeUnit? rest with
            | none => none
            | some (low, rest) =>
                if 0xDC00 ≤ low ∧ low ≤ 0xDFFF then
                  some (Char.ofNat (0x10000 + (high - 0xD800) * 0x400 + (low - 0xDC00)), rest)
                else none
        | _ => none

/-- The character that an escape stands for. -/
def escape? : List Char → Option (Char × List Char)
  | '"' :: rest => some ('"', rest)
  | '\\' :: rest => some ('\\', rest)
  | '/' :: rest => some ('/', rest)
  | 'b' :: rest => some ('\x08', rest)
  | 'f' :: rest => some ('\x0c', rest)
  | 'n' :: rest => some ('\n', rest)
  | 'r' :: rest => some ('\r', rest)
  | 't' :: rest => some ('\t', rest)
  | 'u' :: rest => codePoint? rest
  | _ => none

/-- The rest of a string behind its opening quote, after the content already read, which is held
in reverse. -/
def stringRest? : Nat → List Char → List Char → Option (String × List Char)
  | 0, _, _ => none
  | _, _, [] => none
  | fuel + 1, content, c :: rest =>
      if c = '"' then some (String.ofList content.reverse, rest)
      else if c = '\\' then
        match escape? rest with
        | some (d, rest) => stringRest? fuel (d :: content) rest
        | none => none
      else if c.toNat < 0x20 then none
      else stringRest? fuel (c :: content) rest

/-- The digits behind a point, none of them if there is no point. -/
def fraction? : List Char → Option (List Char × List Char)
  | '.' :: rest =>
      let digits := rest.takeWhile Char.isDigit
      if digits.isEmpty then none else some (digits, rest.dropWhile Char.isDigit)
  | chars => some ([], chars)

/-- The exponent behind its letter, nothing if there is no letter. -/
def exponent? : List Char → Option (Option Int × List Char)
  | c :: rest =>
      if c = 'e' ∨ c = 'E' then
        let (isNegative, rest) := match rest with
          | '-' :: rest => (true, rest)
          | '+' :: rest => (false, rest)
          | rest => (false, rest)
        (Text.natural? 10 (rest.takeWhile Char.isDigit)).map fun n =>
          (some (if isNegative then -(n : Int) else n), rest.dropWhile Char.isDigit)
      else some (none, c :: rest)
  | [] => some (none, [])

/-- The number `mantissa * 10 ^ exponent` with its decimal places, of which there is at least
one. -/
def ofDecimal? (mantissa : Int) (exponent : Int) : Option Json :=
  if mantissa = 0 then some (.decimal 0 1)
  else if Number.Binary64.ofDecimal mantissa.natAbs exponent = .infinity then none
  else if exponent < 0 then some (.decimal mantissa (-exponent).toNat)
  else some (.decimal (mantissa * (Nat.pow 10 (exponent.toNat + 1) : Int)) 1)

/-- A number. A leading zero stands alone, and there is no negative whole zero. -/
def number? (chars : List Char) : Option (Json × List Char) :=
  let (isNegative, chars) := match chars with
    | '-' :: rest => (true, rest)
    | chars => (false, chars)
  let sign (n : Nat) : Int := if isNegative then -(n : Int) else n
  let whole := chars.takeWhile Char.isDigit
  if 1 < whole.length ∧ whole.head? = some '0' then none
  else
    match fraction? (chars.dropWhile Char.isDigit) with
    | none => none
    | some (fraction, rest) =>
        match exponent? rest, Text.natural? 10 whole, Text.natural? 10 (whole ++ fraction) with
        | some (exponent, rest), some value, some mantissa =>
            if exponent.isNone ∧ fraction.isEmpty ∧ ¬ (isNegative ∧ value = 0) then
              some (.int (sign value), rest)
            else
              (ofDecimal? (sign mantissa) (exponent.getD 0 - (fraction.length : Int))).map
                fun number => (number, rest)
        | _, _, _ => none

/-- Adds a field to those before it. A name that was there already has its value replaced. -/
def addField (name : String) (value : Json) (fields : List (String × Json)) :
    List (String × Json) :=
  fields.filter (fun field => field.1 != name) ++ [(name, value)]

/-- The rest behind a word. -/
def word? (word : String) (value : Json) (chars : List Char) : Option (Json × List Char) :=
  if word.toList.isPrefixOf chars then some (value, chars.drop word.length) else none

mutual

/-- A value at the front, with `room` for so many levels of arrays and objects. -/
def value? : Nat → Nat → List Char → Option (Json × List Char)
  | 0, _, _ => none
  | fuel + 1, room, chars =>
      match chars with
      | '"' :: rest =>
          (stringRest? (fuel + 1) [] rest).map fun (text, rest) => (.string text, rest)
      | '[' :: rest =>
          match room, skipBlanks rest with
          | 0, _ => none
          | _, ']' :: rest => some (.array [], rest)
          | room + 1, rest => itemsRest? fuel room [] rest
      | '\x7b' :: rest =>
          match room, skipBlanks rest with
          | 0, _ => none
          | _, '\x7d' :: rest => some (.object [], rest)
          | room + 1, rest => fieldsRest? fuel room [] rest
      | 'n' :: _ => word? "null" .null chars
      | 't' :: _ => word? "true" (.bool true) chars
      | 'f' :: _ => word? "false" (.bool false) chars
      | _ => number? chars

/-- The items of an array from one of them on, after those already read, which are held in
reverse. -/
def itemsRest? : Nat → Nat → List Json → List Char → Option (Json × List Char)
  | 0, _, _, _ => none
  | fuel + 1, room, items, chars =>
      match value? fuel room chars with
      | none => none
      | some (item, rest) =>
          match skipBlanks rest with
          | ',' :: rest => itemsRest? fuel room (item :: items) (skipBlanks rest)
          | ']' :: rest => some (.array (item :: items).reverse, rest)
          | _ => none

/-- The fields of an object from one of them on, after those already read. -/
def fieldsRest? : Nat → Nat → List (String × Json) → List Char → Option (Json × List Char)
  | 0, _, _, _ => none
  | fuel + 1, room, fields, chars =>
      match chars with
      | '"' :: rest =>
          match stringRest? (fuel + 1) [] rest with
          | none => none
          | some (name, rest) =>
              match skipBlanks rest with
              | ':' :: rest =>
                  match value? fuel room (skipBlanks rest) with
                  | none => none
                  | some (value, rest) =>
                      match skipBlanks rest with
                      | ',' :: rest =>
                          fieldsRest? fuel room (addField name value fields) (skipBlanks rest)
                      | '\x7d' :: rest => some (.object (addField name value fields), rest)
                      | _ => none
              | _ => none
      | _ => none

end

/-- The value that a text holds. -/
def read? (text : String) : Option Json :=
  let chars := skipBlanks text.toList
  match value? (chars.length + 1) deepest chars with
  | some (value, rest) => if (skipBlanks rest).isEmpty then some value else none
  | none => none

end Rulebook.Json
