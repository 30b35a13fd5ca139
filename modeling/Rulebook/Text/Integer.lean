/-!
# Integers in text

Reading a 64-bit signed integer, or a natural number below a limit, from decimal text. A reading
fails for one of four reasons, each with its own message.
-/

namespace Rulebook.Text

inductive IntegerError where
  | empty
  | invalidDigit
  | tooLarge
  | tooSmall
deriving DecidableEq, Repr

def IntegerError.message : IntegerError → String
  | .empty => "cannot parse integer from empty string"
  | .invalidDigit => "invalid digit found in string"
  | .tooLarge => "number too large to fit in target type"
  | .tooSmall => "number too small to fit in target type"

/-- The value of a character as a digit, for bases up to sixteen. -/
def digitValue? (base : Nat) (c : Char) : Option Nat :=
  let value :=
    if '0' ≤ c ∧ c ≤ '9' then c.toNat - '0'.toNat
    else if 'a' ≤ c ∧ c ≤ 'f' then c.toNat - 'a'.toNat + 10
    else if 'A' ≤ c ∧ c ≤ 'F' then c.toNat - 'A'.toNat + 10
    else 16
  if value < base then some value else none

/-- The number whose digits follow those of `value`. -/
def naturalFrom (base : Nat) : Nat → List Char → Option Nat
  | value, [] => some value
  | value, c :: rest =>
      match digitValue? base c with
      | some digit => naturalFrom base (value * base + digit) rest
      | none => none

/-- A non-empty run of digits read in the given base. -/
def natural? (base : Nat) (digits : List Char) : Option Nat :=
  if digits.isEmpty then none else naturalFrom base 0 digits

def int64Min : Int := -9223372036854775808
def int64Max : Int := 9223372036854775807

/-- The 64-bit word holding `n`, when there is one. -/
def int64? (n : Int) : Option Int64 :=
  if int64Min ≤ n ∧ n ≤ int64Max then some (Int64.ofInt n) else none

/-- The word holding `n`, or the side on which `n` lies beyond the words. -/
def fitInt64 (n : Int) : Except IntegerError Int64 :=
  match int64? n with
  | some word => .ok word
  | none => .error (if n < 0 then .tooSmall else .tooLarge)

/-- The number that the leading decimal digits give, or zero. -/
def leadingNatural (chars : List Char) : Nat :=
  (natural? 10 (chars.takeWhile fun c => (digitValue? 10 c).isSome)).getD 0

/-- Decimal digits whose number fits. The digits are read from left to right, so that a number
beyond the limits is reported ahead of what stands after its digits. -/
def readDigits {α : Type} (fit : Nat → Except IntegerError α) (chars : List Char) :
    Except IntegerError α :=
  match natural? 10 chars with
  | some n => fit n
  | none =>
      match fit (leadingNatural chars) with
      | .ok _ => .error .invalidDigit
      | .error beyond => .error beyond

/-- An optional sign and decimal digits. A sign alone is not a number. -/
def readInt64 (text : String) : Except IntegerError Int64 :=
  match text.toList with
  | [] => .error .empty
  | '-' :: digits => readDigits (fun n => fitInt64 (-(n : Int))) digits
  | '+' :: digits => readDigits (fun n => fitInt64 n) digits
  | digits => readDigits (fun n => fitInt64 n) digits

/-- An optional plus sign and decimal digits, giving at most `largest`. -/
def readNatural (largest : Nat) (text : String) : Except IntegerError Nat :=
  let fit (n : Nat) := if n ≤ largest then .ok n else .error .tooLarge
  match text.toList with
  | [] => .error .empty
  | '+' :: digits => readDigits fit digits
  | digits => readDigits fit digits

/-- The largest value of an unsigned 64-bit word. -/
def word64Max : Nat := 18446744073709551615

end Rulebook.Text
