import Rulebook.Number.Literal
import Rulebook.Token.Basic

/-!
# Lexemes

The source is cut from left to right into lexemes: gaps, line breaks and tokens. What stands at a
place decides the kind of the lexeme there, which then reaches as far as that kind goes on. Three
quotes start a long string, and a string that is not closed is a fault, though a part of it could
stand alone. Cutting stops at the first fault.
-/

namespace Rulebook

/-- What a stretch of the source stands for. -/
inductive Lexeme where
  /-- Blanks, a comment or a joined line: nothing. -/
  | gap
  | lineBreak
  | token (token : Token)
  | fault
deriving DecidableEq, Repr

namespace Lexeme

def isSpace (c : Char) : Bool := c == ' ' || c == '\t' || c == '\x0c'

def isQuote (c : Char) : Bool := c == '"' || c == '\''

def isDigitOrBar (c : Char) : Bool := c.isDigit || c == '_'

def startsWord (c : Char) : Bool := c.isAlpha || c == '_'

def continuesWord (c : Char) : Bool := c.isAlphanum || c == '_'

/-- The length of the leading run of a class of characters. -/
def run (p : Char → Bool) (chars : List Char) : Nat := (chars.takeWhile p).length

/-! ## Numbers

Underscores may stand between and after the digits of a number and mean nothing. -/

/-- The length of an exponent part at the front, zero if there is none. -/
def exponentLength : List Char → Nat
  | e :: rest =>
      if e == 'e' || e == 'E' then
        let signed := match rest with
          | '+' :: _ => 1
          | '-' :: _ => 1
          | _ => 0
        let digits := run Char.isDigit (rest.drop signed)
        if digits = 0 then 0 else 1 + signed + digits
      else 0
  | [] => 0

/-- An integer literal that has no digits, or does not fit in 64 bits with a sign, is a fault. -/
def ofInteger (base : Nat) (digits : List Char) : Lexeme :=
  match (Text.natural? base (Number.withoutBars digits)).bind fun n => Text.int64? n with
  | some value => .token (.int value)
  | none => .fault

/-- The base announced by the letter after a leading zero. -/
def base? (letter : Char) : Option Nat :=
  if letter == 'x' || letter == 'X' then some 16
  else if letter == 'o' || letter == 'O' then some 8
  else if letter == 'b' || letter == 'B' then some 2
  else none

def isBaseDigit (base : Nat) (c : Char) : Bool :=
  (Text.digitValue? base c).isSome || c == '_'

/-- The length of the digits after a leading zero and a base letter, zero if there are none. -/
def basedLength (base : Nat) (rest : List Char) : Nat := run (isBaseDigit base) rest

/-- A number that starts with a digit, and the count of its characters after the first. -/
def ofDigits (c : Char) (rest : List Char) : Lexeme × Nat :=
  let more := run isDigitOrBar rest
  let after := rest.drop more
  match after with
  | '.' :: tail =>
      let fraction := run isDigitOrBar tail
      let length := more + 1 + fraction + exponentLength (tail.drop fraction)
      (.token (.float (Number.Binary64.ofLiteral (c :: rest.take length))), length)
  | _ =>
      let exponent := exponentLength after
      if exponent = 0 then (ofInteger 10 (c :: rest.take more), more)
      else
        let length := more + exponent
        (.token (.float (Number.Binary64.ofLiteral (c :: rest.take length))), length)

/-- A number, with or without a base letter. -/
def ofNumber (c : Char) (rest : List Char) : Lexeme × Nat :=
  match c, rest with
  | '0', letter :: digits =>
      match base? letter with
      | some base =>
          let length := basedLength base digits
          if length = 0 then ofDigits c rest
          else (ofInteger base (digits.take length), length + 1)
      | none => ofDigits c rest
  | _, _ => ofDigits c rest

/-- A number that starts with its decimal point. -/
def ofFraction (rest : List Char) : Lexeme × Nat :=
  let fraction := run isDigitOrBar rest
  let length := fraction + exponentLength (rest.drop fraction)
  (.token (.float (Number.Binary64.ofLiteral ('.' :: rest.take length))), length)

/-! ## Strings

A string is an optional mark of one or two letters and a body between quotes, three quotes if
three are there. -/

/-- Marks under which the content of the string is its value. -/
def isPlainMark : List Char → Bool
  | [] => true
  | [c] => c == 'r' || c == 'R' || c == 'u' || c == 'U'
  | _ => false

def isRawLetter (c : Char) : Bool := c == 'r' || c == 'R'

def isFormatLetter (c : Char) : Bool := c == 'f' || c == 'F' || c == 'b' || c == 'B'

/-- Marks under which the string is kept as written. -/
def isFormatMark : List Char → Bool
  | [c] => isFormatLetter c
  | [c, d] => (isFormatLetter c && isRawLetter d) || (isRawLetter c && isFormatLetter d)
  | _ => false

/-- The mark before the first quote. -/
def stringMark? (chars : List Char) : Option (List Char) :=
  [chars.take 0, chars.take 1, chars.take 2].find? fun mark =>
    (isPlainMark mark || isFormatMark mark) && (chars.drop mark.length).head?.any isQuote

/-- The length of a body between single quote characters, and whether the closing quote follows.
A backslash takes the next character with it; a line break ends the attempt. -/
def shortBody (quote : Char) : List Char → Nat × Bool
  | [] => (0, false)
  | c :: rest =>
      if c = quote then (0, true)
      else if c = '\\' then
        match rest with
        | [] => (0, false)
        | d :: rest =>
            if d = '\n' then (0, false)
            else
              let (length, closed) := shortBody quote rest
              (length + 2, closed)
      else if c = '\r' ∨ c = '\n' then (0, false)
      else
        let (length, closed) := shortBody quote rest
        (length + 1, closed)

/-- The length of a body between triple quotes, and whether the closing quotes follow. One or two
quotes belong to the body together with the character after them. -/
def longBody (quote : Char) : List Char → Nat × Bool
  | [] => (0, false)
  | c :: rest =>
      if c ≠ quote then
        let (length, closed) := longBody quote rest
        (length + 1, closed)
      else
        match rest with
        | [] => (0, false)
        | d :: rest =>
            if d ≠ quote then
              let (length, closed) := longBody quote rest
              (length + 2, closed)
            else
              match rest with
              | [] => (0, false)
              | e :: rest =>
                  if e ≠ quote then
                    let (length, closed) := longBody quote rest
                    (length + 3, closed)
                  else (0, true)

/-- Resolves the escapes of a string body. An unknown escape stands for itself, and a backslash
at the end of a line joins it to the next. -/
def unescape : List Char → List Char
  | [] => []
  | '\\' :: c :: rest =>
      if c = 'n' then '\n' :: unescape rest
      else if c = 't' then '\t' :: unescape rest
      else if c = 'r' then '\r' :: unescape rest
      else if c = '0' then '\x00' :: unescape rest
      else if c = '\\' ∨ c = '"' ∨ c = '\'' then c :: unescape rest
      else if c = '\n' then unescape rest
      else '\\' :: c :: unescape rest
  | c :: rest => c :: unescape rest

def stringContent (mark body : List Char) : String :=
  String.ofList (if mark.any isRawLetter then body else unescape body)

/-- How many quotes open and close the string whose first quote is `quote`. -/
def quoteLength (quote : Char) (chars : List Char) : Nat :=
  if [quote, quote, quote].isPrefixOf chars then 3 else 1

/-- A string literal and the count of its characters. An unclosed string is a fault that ends
with its last complete body item; but a mark before a quote with nothing behind it is a word. -/
def ofString? (chars : List Char) : Option (Lexeme × Nat) :=
  match stringMark? chars with
  | none => none
  | some mark =>
      let opening := chars.drop mark.length
      let quote := opening.headD '"'
      let width := quoteLength quote opening
      let (length, closed) :=
        (if width = 3 then longBody else shortBody) quote (opening.drop width)
      if closed then
        let total := mark.length + width + length + width
        let token :=
          if isPlainMark mark then
            .string (stringContent mark ((opening.drop width).take length))
          else .markedString (String.ofList (chars.take total))
        some (.token token, total)
      else if width = 1 ∧ length = 0 ∧ mark ≠ [] then none
      else some (.fault, mark.length + width + length)

/-- The symbol at the front, the longest if there are two. -/
def symbol? (chars : List Char) : Option Symbol :=
  Symbol.all.find? fun mark => mark.text.toList.isPrefixOf chars

/-- The lexeme at the front of `c :: rest` and the count of its characters after `c`. -/
def next (c : Char) (rest : List Char) : Lexeme × Nat :=
  if isSpace c then (.gap, run isSpace rest)
  else if c = '#' then (.gap, run (fun d => d != '\r' && d != '\n') rest)
  else if c = '\\' then
    match rest with
    | '\n' :: _ => (.gap, 1)
    | '\r' :: '\n' :: _ => (.gap, 2)
    | _ => (.fault, 0)
  else if c = '\n' then (.lineBreak, 0)
  else if c = '\r' then
    match rest with
    | '\n' :: _ => (.lineBreak, 1)
    | _ => (.fault, 0)
  else if c.isDigit then ofNumber c rest
  else if c = '.' ∧ rest.head?.any Char.isDigit then ofFraction rest
  else
    match ofString? (c :: rest) with
    | some (lexeme, length) => (lexeme, length - 1)
    | none =>
        if startsWord c then
          let length := run continuesWord rest
          (.token (.ofWord (String.ofList (c :: rest.take length))), length)
        else
          match symbol? (c :: rest) with
          | some mark => (.token (.symbol mark), mark.text.length - 1)
          | none => (.fault, 0)

end Lexeme

/-- A lexeme with the characters it was cut from. -/
structure Piece where
  lexeme : Lexeme
  text : List Char
deriving DecidableEq, Repr

/-- Cuts the source into pieces, up to and including the first fault. -/
def pieces : List Char → List Piece
  | [] => []
  | c :: rest =>
      let (lexeme, more) := Lexeme.next c rest
      let piece : Piece := ⟨lexeme, c :: rest.take more⟩
      if lexeme = .fault then [piece] else piece :: pieces (rest.drop more)
termination_by chars => chars.length

end Rulebook
