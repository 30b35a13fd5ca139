/-!
# Double precision numbers

A floating point literal denotes the binary64 number nearest to its decimal value, ties going to
the even significand. It is written back with the fewest decimal digits that read as the same
number, in positional notation.
-/

namespace Rulebook.Number

/-- A binary64 number, held by its bit pattern. -/
structure Binary64 where
  bits : UInt64
deriving DecidableEq, Repr

namespace Binary64

def infinity : Binary64 := ⟨0x7FF0000000000000⟩

/-- The leading bit of the significand, which the pattern of a normal number leaves out. -/
def hiddenBit : Nat := 0x10000000000000

/-- The natural number nearest to `num / den`; a half goes to the even neighbour. -/
def roundQuotient (num den : Nat) : Nat :=
  let quotient := num / den
  let twice := 2 * (num % den)
  if twice < den then quotient
  else if den < twice then quotient + 1
  else if quotient % 2 = 0 then quotient
  else quotient + 1

/-- The fraction `num / den` divided by a power of `base`, with either sign of the exponent. -/
def scaleDown (base num den : Nat) (exponent : Int) : Nat × Nat :=
  if 0 ≤ exponent then (num, den * base.pow exponent.toNat)
  else (num * base.pow (-exponent).toNat, den)

/-- The largest power of two, as an exponent, that does not exceed a positive fraction. -/
def binaryOrder (num den : Nat) : Int :=
  let guess : Int := (num.log2 : Int) - (den.log2 : Int)
  let scaled := scaleDown 2 num den guess
  if scaled.2 ≤ scaled.1 then guess else guess - 1

/-- The number nearest to a fraction. The unit in the last place is `2 ^ (order - 52)`, but never
below `2 ^ (-1074)`; a significand that rounds up to the next power of two carries into the
exponent field. -/
def ofFraction (num den : Nat) : Binary64 :=
  if num = 0 then ⟨0⟩
  else
    let unit : Int := max (binaryOrder num den - 52) (-1074)
    let scaled := scaleDown 2 num den unit
    let pattern := (unit + 1074).toNat * hiddenBit + roundQuotient scaled.1 scaled.2
    if pattern < 0x7FF0000000000000 then ⟨pattern.toUInt64⟩ else infinity

def decimalLength (n : Nat) : Nat :=
  (Nat.toDigits 10 n).length

/-- The number nearest to `mantissa * 10 ^ exponent`. Values far outside the range of exponents
are settled without computing the power. -/
def ofDecimal (mantissa : Nat) (exponent : Int) : Binary64 :=
  if mantissa = 0 then ⟨0⟩
  else if 400 < exponent then infinity
  else if (decimalLength mantissa : Int) + exponent < -400 then ⟨0⟩
  else
    let fraction := scaleDown 10 mantissa 1 (-exponent)
    ofFraction fraction.1 fraction.2

/-- The significand and the exponent of its unit, for a finite number without sign. -/
def decode (value : Binary64) : Nat × Int :=
  let field : Nat := (value.bits.toNat / hiddenBit) % 2048
  let rest : Nat := value.bits.toNat % hiddenBit
  if field = 0 then (rest, -1074) else (rest + hiddenBit, (field : Int) - 1075)

/-- The number of digits before the decimal point, or the negated number of zeros after it. -/
def decimalOrder (num den : Nat) : Int :=
  if den ≤ num then (decimalLength (num / den) : Int)
  else 1 - (decimalLength ((den - 1) / num) : Int)

/-- A decimal `digits * 10 ^ exponent`. -/
structure Decimal where
  digits : Nat
  exponent : Int
deriving DecidableEq, Repr

/-- Of the two decimals around the value on the grid of `length` digits, those that read back as
the same number; of two, the nearer, and the upper one at a tie. The upper one may be the next
power of ten. -/
def onGrid? (value : Binary64) (length : Nat) : Option Decimal :=
  let (significand, unit) := value.decode
  let (num, den) := scaleDown 2 significand 1 (-unit)
  let exponent := decimalOrder num den - (length : Int)
  let (num, den) := scaleDown 10 num den exponent
  let below := num / den
  let above : Decimal :=
    if below + 1 = Nat.pow 10 length then ⟨1, exponent + (length : Int)⟩ else ⟨below + 1, exponent⟩
  let readsBack (digits : Nat) : Bool := ofDecimal digits exponent == value
  match readsBack below, readsBack (below + 1) with
  | true, true =>
      some (if 2 * (num % den) < den then ⟨below, exponent⟩ else above)
  | true, false => some ⟨below, exponent⟩
  | false, true => some above
  | false, false => none

/-- The fewest digits that read back; seventeen always suffice. -/
def shortest? (value : Binary64) : Option Decimal :=
  (List.range 17).findSome? fun length => value.onGrid? (length + 1)

/-- Positional notation without an exponent. -/
def Decimal.text (decimal : Decimal) : String :=
  let digits := Nat.toDigits 10 decimal.digits
  if 0 ≤ decimal.exponent then
    String.ofList (digits ++ List.replicate decimal.exponent.toNat '0')
  else
    let places := (-decimal.exponent).toNat
    let padded := List.replicate (places + 1 - digits.length) '0' ++ digits
    let whole := padded.length - places
    String.ofList (padded.take whole ++ '.' :: padded.drop whole)

/-- The text of a number without sign: whole numbers have no point, and infinity is `inf`. -/
def text (value : Binary64) : String :=
  if value = infinity then "inf"
  else if value.bits = 0 then "0"
  else
    match value.shortest? with
    | some decimal => decimal.text
    | none => "NaN"

/-- The bit pattern as sixteen hexadecimal digits. -/
def hex (value : Binary64) : String :=
  let digits := Nat.toDigits 16 value.bits.toNat
  String.ofList ('0' :: 'x' :: (List.replicate (16 - digits.length) '0' ++ digits))

end Binary64

end Rulebook.Number
