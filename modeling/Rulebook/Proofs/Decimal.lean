import Rulebook.Text.Integer
import Mathlib.Data.Nat.Basic

/-!
# Decimal digits read back

The digits that a natural number is written with are read as this number again, and the first of
them is zero only if the number is. Nothing but digits is read as a number.
-/

namespace Rulebook.Text

private theorem digitValue?_of_isDigit {c : Char} (digit : c.isDigit = true) :
    digitValue? 10 c = some (c.toNat - '0'.toNat) := by
  have bounds : '0' ≤ c ∧ c ≤ '9' := by
    simpa [Char.isDigit, Char.le_def] using digit
  have upper : c.toNat ≤ '9'.toNat := bounds.2
  have small : c.toNat - '0'.toNat < 10 := by
    have nine : '9'.toNat = 57 := rfl
    have zero : '0'.toNat = 48 := rfl
    omega
  rw [digitValue?, if_pos bounds, if_pos small]

private theorem naturalFrom_of_digits
    {digits : List Char} (areDigits : ∀ c ∈ digits, c.isDigit = true) (value : Nat) :
    naturalFrom 10 value digits = some (Nat.ofDigitChars 10 digits value) := by
  induction digits generalizing value with
  | nil => rw [naturalFrom, Nat.ofDigitChars_nil]
  | cons c rest inductionHypothesis =>
      have restDigits : ∀ d ∈ rest, d.isDigit = true :=
        fun d member => areDigits d (List.mem_cons_of_mem _ member)
      rw [naturalFrom, digitValue?_of_isDigit (areDigits c List.mem_cons_self),
        Nat.ofDigitChars_cons, Nat.mul_comm 10 value]
      exact inductionHypothesis restDigits _

/-- The letters that serve as digits count ten or more, so that they are none in this base. -/
theorem isDigit_of_digitValue? {c : Char} {value : Nat} (known : digitValue? 10 c = some value) :
    c.isDigit = true := by
  by_cases decimal : '0' ≤ c ∧ c ≤ '9'
  · simpa [Char.isDigit, Char.le_def] using decimal
  · have large : ∀ other : Nat, 10 ≤ other →
        (if other < 10 then some other else none) ≠ some value := by
      intro other tooLarge
      rw [if_neg (by omega)]
      simp
    rw [digitValue?, if_neg decimal] at known
    split at known
    · exact absurd known (large _ (by omega))
    · split at known
      · exact absurd known (large _ (by omega))
      · exact absurd known (large _ (by omega))

private theorem isDigit_of_naturalFrom
    {digits : List Char} {value n : Nat} (number : naturalFrom 10 value digits = some n) :
    ∀ c ∈ digits, c.isDigit = true := by
  induction digits generalizing value with
  | nil => simp
  | cons c rest inductionHypothesis =>
      rw [naturalFrom] at number
      split at number
      · rename_i digit known
        rw [List.forall_mem_cons]
        exact ⟨isDigit_of_digitValue? known, inductionHypothesis number⟩
      · cases number

theorem isDigit_of_natural? {digits : List Char} {n : Nat} (number : natural? 10 digits = some n) :
    digits ≠ [] ∧ ∀ c ∈ digits, c.isDigit = true := by
  rw [natural?] at number
  split at number
  · cases number
  · rename_i nonempty
    exact ⟨by simpa using nonempty, isDigit_of_naturalFrom number⟩

theorem isDigit_of_mem_toDigits {n : Nat} {c : Char} (member : c ∈ Nat.toDigits 10 n) :
    c.isDigit = true :=
  Nat.isDigit_of_mem_toDigits (by decide) (by decide) member

/-- The digits of a number are read as the number. -/
@[simp]
theorem natural?_toDigits (n : Nat) : natural? 10 (Nat.toDigits 10 n) = some n := by
  have nonempty : (Nat.toDigits 10 n).isEmpty = false :=
    List.isEmpty_eq_false_iff.mpr Nat.toDigits_ne_nil
  rw [natural?, nonempty, if_neg Bool.false_ne_true,
    naturalFrom_of_digits fun c member => isDigit_of_mem_toDigits member,
    Nat.ofDigitChars_ten_toDigits]

/-- No positive number is written with a leading zero. -/
theorem head?_toDigits_ne_zero {n : Nat} (positive : 0 < n) :
    (Nat.toDigits 10 n).head? ≠ some '0' := by
  induction n using Nat.strongRecOn with
  | ind n inductionHypothesis =>
      by_cases small : n < 10
      · rw [Nat.toDigits_of_lt_base small]
        have digit : ∀ d : Fin 10, 0 < d.val → some d.val.digitChar ≠ some '0' := by decide
        exact digit ⟨n, small⟩ positive
      · have smaller : n / 10 < n := Nat.div_lt_self positive (by decide)
        have quotientPositive : 0 < n / 10 := Nat.div_pos (by omega) (by decide)
        have quotientHead := inductionHypothesis (n / 10) smaller quotientPositive
        obtain ⟨first, rest, split⟩ :=
          List.exists_cons_of_ne_nil (Nat.toDigits_ne_nil (n := n / 10) (b := 10))
        rw [split] at quotientHead
        rw [Nat.toDigits_of_base_le (by decide) (by omega), split]
        exact quotientHead

end Rulebook.Text
