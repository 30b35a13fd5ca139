import Rulebook.Text.Integer

/-!
# Dates and times

How dates, times of day and both together are written. Each part has a fixed number of digits and
must exist: the day in its month, the hour in the day. A minute may have a leap second.
-/

namespace Rulebook.Toml

/-- Whether the characters follow a pattern in which `d` stands for a digit. -/
def follows (pattern : String) (chars : List Char) : Bool :=
  chars.length = pattern.length &&
    (pattern.toList.zip chars).all fun (p, c) => if p = 'd' then c.isDigit else p == c

/-- The number that the digits at a place make up. -/
def numberAt (start count : Nat) (chars : List Char) : Nat :=
  (Text.natural? 10 ((chars.drop start).take count)).getD 0

def isLeapYear (year : Nat) : Bool :=
  year % 4 = 0 && (year % 100 != 0 || year % 400 = 0)

def daysOfMonth (year month : Nat) : Nat :=
  if month = 2 then (if isLeapYear year then 29 else 28)
  else if month = 4 ∨ month = 6 ∨ month = 9 ∨ month = 11 then 30
  else 31

def isDate (chars : List Char) : Bool :=
  let year := numberAt 0 4 chars
  let month := numberAt 5 2 chars
  let day := numberAt 8 2 chars
  follows "dddd-dd-dd" chars && 1 ≤ month && month ≤ 12 && 1 ≤ day &&
    day ≤ daysOfMonth year month

/-- Hours and minutes. -/
def isHourMinute (chars : List Char) : Bool :=
  follows "dd:dd" chars && numberAt 0 2 chars < 24 && numberAt 3 2 chars < 60

/-- Seconds, perhaps with a fraction. -/
def isSecond (chars : List Char) : Bool :=
  follows "dd" (chars.take 2) && numberAt 0 2 chars ≤ 60 &&
    match chars.drop 2 with
    | [] => true
    | '.' :: digits => !digits.isEmpty && digits.all Char.isDigit
    | _ => false

/-- A time of day, perhaps with a fraction of a second. -/
def isTime (chars : List Char) : Bool :=
  isHourMinute (chars.take 5) &&
    match chars.drop 5 with
    | ':' :: rest => isSecond rest
    | _ => false

/-- A time of day with an offset from the universal one. -/
def isOffsetTime (chars : List Char) : Bool :=
  match chars.reverse with
  | 'Z' :: rest | 'z' :: rest => isTime rest.reverse
  | _ =>
      let cut := chars.length - 6
      match chars.drop cut with
      | '+' :: offset | '-' :: offset => isHourMinute offset && isTime (chars.take cut)
      | _ => false

/-- A date, a time of day, or a date and a time with or without an offset. -/
def isMoment (chars : List Char) : Bool :=
  isTime chars ||
    (isDate (chars.take 10) &&
      match chars.drop 10 with
      | [] => true
      | c :: time => (c == 'T' || c == 't' || c == ' ') && (isTime time || isOffsetTime time))

end Rulebook.Toml
