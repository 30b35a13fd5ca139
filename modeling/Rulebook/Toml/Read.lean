import Rulebook.Number.Literal
import Rulebook.Toml.Basic
import Rulebook.Toml.Moment

/-!
# Reading configurations

The document is read line by line: headers open tables, and keys with values add to the table that
was opened last. A reading function gives the value and the characters after it.
-/

namespace Rulebook.Toml

open Number (withoutBars)

/-- How deep lists and tables written as values may nest, and how many parts a key may have. -/
def deepest : Nat := 79

def isSpace (c : Char) : Bool := c == ' ' || c == '\t'

def skipSpace (chars : List Char) : List Char := chars.dropWhile isSpace

/-- Control characters other than the tab may stand nowhere. -/
def isControl (c : Char) : Bool := (c.toNat < 0x20 && c != '\t') || c.toNat = 0x7F

/-- The rest behind a line break. -/
def lineBreak? : List Char → Option (List Char)
  | '\n' :: rest => some rest
  | '\r' :: '\n' :: rest => some rest
  | _ => none

/-- The rest behind a comment, if there is one. -/
def skipComment (chars : List Char) : List Char :=
  match chars with
  | '#' :: rest => rest.dropWhile (!isControl ·)
  | _ => chars

/-- The rest behind the end of a line, or of the document. -/
def lineEnd? (chars : List Char) : Option (List Char) :=
  match skipComment (skipSpace chars) with
  | [] => some []
  | rest => lineBreak? rest

/-- Skips blanks, comments and line breaks, in as many steps as there is fuel. -/
def skipLines : Nat → List Char → List Char
  | 0, chars => chars
  | fuel + 1, chars =>
      let rest := skipComment (skipSpace chars)
      match lineBreak? rest with
      | some rest => skipLines fuel rest
      | none => rest

/-- A character given by its code point in hexadecimal digits. -/
def codePoint? (digits : List Char) : Option Char :=
  match Text.natural? 16 digits with
  | some n => if n.isValidChar then some (Char.ofNat n) else none
  | none => none

/-- The character that an escape stands for, and the rest behind it. -/
def escape? : List Char → Option (Char × List Char)
  | 'b' :: rest => some ('\x08', rest)
  | 't' :: rest => some ('\t', rest)
  | 'n' :: rest => some ('\n', rest)
  | 'f' :: rest => some ('\x0c', rest)
  | 'r' :: rest => some ('\r', rest)
  | '"' :: rest => some ('"', rest)
  | '\\' :: rest => some ('\\', rest)
  | 'u' :: rest =>
      if rest.length < 4 then none
      else (codePoint? (rest.take 4)).map fun c => (c, rest.drop 4)
  | 'U' :: rest =>
      if rest.length < 8 then none
      else (codePoint? (rest.take 8)).map fun c => (c, rest.drop 8)
  | _ => none

/-- The content of a string on one line up to its closing quote. -/
def shortString (quote : Char) (escapes : Bool) :
    Nat → List Char → List Char → Option (List Char × List Char)
  | 0, _, _ => none
  | _, _, [] => none
  | fuel + 1, content, c :: rest =>
      if c = quote then some (content.reverse, rest)
      else if escapes ∧ c = '\\' then
        match escape? rest with
        | some (d, rest) => shortString quote escapes fuel (d :: content) rest
        | none => none
      else if isControl c then none
      else shortString quote escapes fuel (c :: content) rest

/-- Skips blanks and line breaks. -/
def skipBlankLines : List Char → List Char
  | ' ' :: rest | '\t' :: rest | '\n' :: rest => skipBlankLines rest
  | '\r' :: '\n' :: rest => skipBlankLines rest
  | chars => chars

/-- The rest behind a backslash at the end of a line and the blank lines after it. -/
def joinedLine? (chars : List Char) : Option (List Char) :=
  (lineBreak? (skipSpace chars)).map skipBlankLines

/-- The content of a string over several lines up to its closing quotes. One or two quotes may
stand in it, also right before the closing ones. -/
def longString (quote : Char) (escapes : Bool) :
    Nat → List Char → List Char → Option (List Char × List Char)
  | 0, _, _ => none
  | _, _, [] => none
  | fuel + 1, content, c :: rest =>
      if c = quote then
        let quotes := (rest.takeWhile (· == quote)).length + 1
        if quotes < 3 then longString quote escapes fuel (c :: content) rest
        else if 5 < quotes then none
        else some ((List.replicate (quotes - 3) quote ++ content).reverse, rest.drop (quotes - 1))
      else if escapes ∧ c = '\\' then
        match escape? rest with
        | some (d, rest) => longString quote escapes fuel (d :: content) rest
        | none =>
            match joinedLine? rest with
            | some rest => longString quote escapes fuel content rest
            | none => none
      else
        match lineBreak? (c :: rest) with
        | some rest => longString quote escapes fuel ('\n' :: content) rest
        | none => if isControl c then none else longString quote escapes fuel (c :: content) rest

/-- A string of any form. -/
def string? (chars : List Char) : Option (String × List Char) :=
  let whole (result : Option (List Char × List Char)) : Option (String × List Char) :=
    result.map fun (content, rest) => (String.ofList content, rest)
  let fuel := chars.length + 1
  match chars with
  | '"' :: '"' :: '"' :: rest => whole (longString '"' true fuel [] ((lineBreak? rest).getD rest))
  | '\'' :: '\'' :: '\'' :: rest =>
      whole (longString '\'' false fuel [] ((lineBreak? rest).getD rest))
  | '"' :: rest => whole (shortString '"' true fuel [] rest)
  | '\'' :: rest => whole (shortString '\'' false fuel [] rest)
  | _ => none

def isBareKey (c : Char) : Bool := c.isAlphanum || c == '_' || c == '-'

/-- One part of a key. -/
def keyPart? (chars : List Char) : Option (String × List Char) :=
  match chars with
  | '"' :: rest =>
      (shortString '"' true chars.length [] rest).map fun (part, rest) =>
        (String.ofList part, rest)
  | '\'' :: rest =>
      (shortString '\'' false chars.length [] rest).map fun (part, rest) =>
        (String.ofList part, rest)
  | _ =>
      let part := chars.takeWhile isBareKey
      if part.isEmpty then none else some (String.ofList part, chars.dropWhile isBareKey)

/-- The parts of a key with dots between them, and the rest behind the blanks after it. -/
def keyParts? : Nat → List Char → Option (List String × List Char)
  | 0, _ => none
  | fuel + 1, chars =>
      match keyPart? (skipSpace chars) with
      | none => none
      | some (part, rest) =>
          match skipSpace rest with
          | '.' :: rest => (keyParts? fuel rest).map fun (parts, rest) => (part :: parts, rest)
          | rest => some ([part], rest)

/-- A key that does not have too many parts. -/
def key? (chars : List Char) : Option (List String × List Char) :=
  (keyParts? chars.length chars).filter fun (parts, _) => parts.length ≤ deepest

/-- Digits with single underscores between them. -/
def isGrouped (isDigit : Char → Bool) : List Char → Bool
  | [] => false
  | [c] => isDigit c
  | c :: '_' :: rest => isDigit c && isGrouped isDigit rest
  | c :: rest => isDigit c && isGrouped isDigit rest

def dropSign : List Char → List Char
  | '+' :: rest => rest
  | '-' :: rest => rest
  | chars => chars

/-- Decimal digits without a leading zero. -/
def isDecimal (digits : List Char) : Bool :=
  isGrouped Char.isDigit digits && (digits.length = 1 || digits.head? != some '0')

/-- An integer in a base announced after a zero, if the letter announces one. -/
def based? (letter : Char) (digits : List Char) : Option Int :=
  let base := if letter = 'x' then 16 else if letter = 'o' then 8 else if letter = 'b' then 2 else 0
  if isGrouped (fun c => (Text.digitValue? base c).isSome) digits then
    (Text.natural? base (withoutBars digits)).map Int.ofNat
  else none

def integer? (written : List Char) : Option Int :=
  match written with
  | '0' :: letter :: digits => based? letter digits
  | '-' :: digits =>
      if isDecimal digits then (Text.natural? 10 (withoutBars digits)).map fun n => -(n : Int)
      else none
  | _ =>
      let digits := dropSign written
      if isDecimal digits then (Text.natural? 10 (withoutBars digits)).map Int.ofNat else none

/-- Whether digits have a fraction, an exponent or both. -/
def hasFloatForm (chars : List Char) : Bool :=
  let isMark (c : Char) : Bool := c == 'e' || c == 'E'
  let mantissa := chars.takeWhile (!isMark ·)
  let exponent := chars.dropWhile (!isMark ·)
  let whole := mantissa.takeWhile (· != '.')
  let fraction := mantissa.dropWhile (· != '.')
  isDecimal whole && (fraction.isEmpty || isGrouped Char.isDigit (fraction.drop 1)) &&
    (exponent.isEmpty || isGrouped Char.isDigit (dropSign (exponent.drop 1))) &&
    !(fraction.isEmpty && exponent.isEmpty)

/-- A number that is no integer. Infinity is written by name: digits that are too large for a
finite number are refused, unless the sign takes them below all finite numbers. -/
def isFloat (written : List Char) : Bool :=
  let chars := dropSign written
  if chars = ['i', 'n', 'f'] ∨ chars = ['n', 'a', 'n'] then true
  else
    hasFloatForm chars &&
      (written.head? = some '-' || Number.Binary64.ofLiteral chars != .infinity)

/-- The value of a word that is no string. -/
def word? (written : List Char) : Option Toml :=
  if written = "true".toList then some (.boolean true)
  else if written = "false".toList then some (.boolean false)
  else
    match integer? written with
    | some n => (Text.int64? n).map .integer
    | none =>
        if isFloat written then some .float
        else if isMoment written then some .moment
        else none

def isWordChar (c : Char) : Bool :=
  c.isAlphanum || c == '_' || c == '+' || c == '-' || c == '.' || c == ':'

/-- The characters of a word. A date may be followed by a blank and a time. -/
def takeWord (chars : List Char) : List Char × List Char :=
  let word := chars.takeWhile isWordChar
  let rest := chars.dropWhile isWordChar
  match rest with
  | ' ' :: c :: _ =>
      if isDate word && c.isDigit then
        (word ++ ' ' :: (rest.drop 1).takeWhile isWordChar, (rest.drop 1).dropWhile isWordChar)
      else (word, rest)
  | _ => (word, rest)

/-! ## Values

Values have `room` for so many more levels of lists and tables inside each other. -/

mutual

def value? : Nat → Nat → List Char → Option (Toml × List Char)
  | 0, _, _ => none
  | fuel + 1, room, chars =>
      match chars with
      | '"' :: _ | '\'' :: _ => (string? chars).map fun (text, rest) => (.string text, rest)
      | '[' :: rest =>
          match room with
          | 0 => none
          | room + 1 => listRest? fuel room [] rest
      | '\x7b' :: rest =>
          match room with
          | 0 => none
          | room + 1 =>
              match skipSpace rest with
              | '\x7d' :: rest => some (.table .inline [], rest)
              | rest => inlineRest? fuel room [] rest
      | _ =>
          let (word, rest) := takeWord chars
          (word? word).map fun value => (value, rest)

/-- The items of a list, after those already read. -/
def listRest? : Nat → Nat → List Toml → List Char → Option (Toml × List Char)
  | 0, _, _, _ => none
  | fuel + 1, room, items, chars =>
      match skipLines chars.length chars with
      | ']' :: rest => some (.list items, rest)
      | rest =>
          match value? fuel room rest with
          | none => none
          | some (item, rest) =>
              match skipLines rest.length rest with
              | ',' :: rest => listRest? fuel room (items ++ [item]) rest
              | ']' :: rest => some (.list (items ++ [item]), rest)
              | _ => none

/-- The entries of a table written as a value, after those already read. -/
def inlineRest? : Nat → Nat → List (String × Toml) → List Char → Option (Toml × List Char)
  | 0, _, _, _ => none
  | fuel + 1, room, entries, chars =>
      match key? chars with
      | some (key, '=' :: rest) =>
          match value? fuel room (skipSpace rest) with
          | none => none
          | some (value, rest) =>
              match insertKey .header value key entries with
              | none => none
              | some entries =>
                  match skipSpace rest with
                  | ',' :: rest => inlineRest? fuel room entries rest
                  | '\x7d' :: rest => some (.table .inline entries, rest)
                  | _ => none
      | _ => none

end

/-! ## Documents -/

/-- A header: whether it adds to a list, its path and the rest behind it. -/
def header? (chars : List Char) : Option (Bool × List String × List Char) :=
  match chars with
  | '[' :: '[' :: rest =>
      match key? rest with
      | some (path, ']' :: ']' :: rest) => some (true, path, rest)
      | _ => none
  | '[' :: rest =>
      match key? rest with
      | some (path, ']' :: rest) => some (false, path, rest)
      | _ => none
  | _ => none

/-- Reads the lines of a document, adding to `root` at `path`. -/
def lines? : Nat → List (String × Toml) → List String → List Char →
    Option (List (String × Toml))
  | 0, _, _, _ => none
  | fuel + 1, root, path, chars =>
      match skipSpace (skipLines chars.length chars) with
      | [] => some root
      | '[' :: rest =>
          match header? ('[' :: rest) with
          | none => none
          | some (listed, path, rest) =>
              match (if listed then openListed else openTable) path root, lineEnd? rest with
              | some root, some rest => lines? fuel root path rest
              | _, _ => none
      | rest =>
          match key? rest with
          | some (key, '=' :: rest) =>
              match value? rest.length deepest (skipSpace rest) with
              | none => none
              | some (value, rest) =>
                  match addTo path key value root, lineEnd? rest with
                  | some root, some rest => lines? fuel root path rest
                  | _, _ => none
          | _ => none

/-- The entries of a document. A byte order mark at its start means nothing. -/
def read? (text : String) : Option (List (String × Toml)) :=
  let chars := match text.toList with
    | '\uFEFF' :: rest => rest
    | chars => chars
  lines? (chars.length + 1) [] [] chars

end Rulebook.Toml
